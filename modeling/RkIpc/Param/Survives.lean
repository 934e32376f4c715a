import RkIpc.Param.ReadBack
import RkIpc.Param.Store

/-!
# What survives saving and loading

A dictionary that was loaded, with entries set since, is printed section by section. If every
section has a header that is read back, and every entry stands in a section and is read back, then
the file that was saved can be loaded, and every parameter is what it was.

## Main definitions

* `Dictionary.Savable`: the condition on the dictionary that is saved
* `Setter`, `setters`: a setting of the program, and a sequence of them

## Main results

* `iniparserLoad_dumpIni`: a savable dictionary is loaded as it was dumped
* `config_survives`: saved parameters are read back
* `semicolon_lost`: a semicolon is not
-/

namespace RkIpc.Param

open Text

/-- **The dictionary can be saved**: its sections have names that are read back, only the first
one may have none, and its entries are in them and are read back. -/
structure Dictionary.Savable (d : Dictionary) : Prop where
  header : ∀ s, d.lookup s = some none → SectionName s
  named : ∀ s ∈ (iniparserSections d).tail, s ≠ []
  entry : ∀ key val, d.lookup key = some (some val) →
    ∃ s k, key = s ++ colon :: k ∧ d.lookup s = some none ∧ Readable k val
  keys : ∀ s, d.lookup s = some none → (sectionEntries d s).length ≤ maxSectionKeys

/-! ## Setting in turn -/

/-- Keys are set in turn. -/
def setAll (d : Dictionary) (es : List (Str × Option Str)) : Dictionary :=
  es.foldl (fun d e => dictionarySet d e.1 e.2) d

@[simp] theorem setAll_nil (d : Dictionary) : setAll d [] = d := rfl

@[simp] theorem setAll_cons (d : Dictionary) (e : Str × Option Str) (es : List (Str × Option Str)) :
    setAll d (e :: es) = setAll (dictionarySet d e.1 e.2) es := rfl

theorem setAll_append (d : Dictionary) (a b : List (Str × Option Str)) :
    setAll d (a ++ b) = setAll (setAll d a) b := List.foldl_append

/-- Entries of one map are found with the values of that map. -/
theorem lookup_setAll {m : Str → Option (Option Str)} {es : List (Str × Option Str)}
    (hm : ∀ e ∈ es, m e.1 = some (e.2.map cstr)) (d : Dictionary) (k : Str) :
    (setAll d es).lookup k = if k ∈ es.map Prod.fst then m k else d.lookup k := by
  induction es generalizing d with
  | nil => simp
  | cons e es ih =>
    rw [setAll_cons, ih fun e' he' => hm e' (List.mem_cons_of_mem _ he'), List.map_cons]
    by_cases hk : k ∈ es.map Prod.fst
    · rw [if_pos hk, if_pos (List.mem_cons_of_mem _ hk)]
    · rw [if_neg hk, lookup_dictionarySet, Function.update_apply]
      by_cases he : k = e.1
      · rw [if_pos he, if_pos (he ▸ List.mem_cons_self), he, hm e List.mem_cons_self]
      · rw [if_neg he, if_neg (by simp only [List.mem_cons, he, hk, or_self, not_false_iff])]

/-! ## Printing and reading a dictionary -/

variable {d : Dictionary}

theorem mem_iniparserSections {s : Str} :
    s ∈ iniparserSections d ↔ colon ∉ s ∧ ∃ v, d.lookup s = some v := by
  simp only [iniparserSections, List.mem_filter, List.mem_map, decide_eq_true_eq,
    Dictionary.lookup_eq_some_iff]
  constructor
  · rintro ⟨⟨⟨k, v⟩, he, rfl⟩, hs⟩
    exact ⟨hs, v, he⟩
  · rintro ⟨hs, v, he⟩
    exact ⟨⟨(s, v), he, rfl⟩, hs⟩

theorem mem_sectionEntries {s : Str} {e : Str × Option Str} :
    e ∈ sectionEntries d s ↔ d.lookup e.1 = some e.2 ∧ ∃ k, e.1 = s ++ colon :: k := by
  rw [sectionEntries, List.mem_filter, Dictionary.lookup_eq_some_iff, List.isPrefixOf_iff_prefix]
  refine and_congr_right fun _ => ⟨?_, ?_⟩
  · rintro ⟨k, hk⟩
    exact ⟨k, by rw [← hk, List.append_assoc, List.singleton_append]⟩
  · rintro ⟨k, hk⟩
    exact ⟨k, by rw [hk, List.append_assoc, List.singleton_append]⟩

theorem nodup_sectionEntries (d : Dictionary) (s : Str) : (sectionEntries d s).Nodup :=
  (List.Nodup.of_map _ d.distinct).filter _

/-- The first colon splits a key. -/
theorem split_unique {s s' k k' : Str} (hs : colon ∉ s) (hs' : colon ∉ s')
    (h : s ++ colon :: k = s' ++ colon :: k') : s = s' ∧ k = k' := by
  induction s generalizing s' with
  | nil =>
    cases s' with
    | nil => exact ⟨rfl, (List.cons.inj h).2⟩
    | cons c s' => exact absurd ((List.cons.inj h).1 ▸ List.mem_cons_self) hs'
  | cons c s ih =>
    cases s' with
    | nil => exact absurd ((List.cons.inj h).1 ▸ List.mem_cons_self) hs
    | cons c' s' =>
      obtain ⟨rfl, htail⟩ := List.cons.inj h
      rw [List.mem_cons, not_or] at hs hs'
      obtain ⟨rfl, rfl⟩ := ih hs.2 hs'.2 htail
      exact ⟨rfl, rfl⟩

/-- What a section is read back as. -/
def printed (d : Dictionary) (s : Str) : List (Str × Option Str) := (s, none) :: sectionEntries d s

section Savable

variable (hl : d.Loaded) (hd : d.Savable)
include hl hd

/-- The entries of a section, as they stand in the file. -/
theorem reads_entries {s : Str} (es : List (Str × Option Str)) (hes : es ⊆ sectionEntries d s)
    (hs : colon ∉ s) (d' : Dictionary) :
    Reads (between s d') (es.flatMap fun e =>
      entryLine (e.1.drop (s.length + 1)) (e.2.getD []) ++ lit "\n")
      (between s (setAll d' es)) := by
  induction es generalizing d' with
  | nil => exact Reads.nil _
  | cons e es ih =>
    rw [List.flatMap_cons, setAll_cons]
    refine Reads.trans ?_ (ih (fun _ h => hes (List.mem_cons_of_mem _ h)) _)
    obtain ⟨hlook, k, hk⟩ := mem_sectionEntries.mp (hes List.mem_cons_self)
    have hkey := hl.key _ _ hlook
    cases hv : e.2 with
    | none =>
      -- the name of a section has no colon
      have := (hd.header e.1 (hv ▸ hlook)).noColon
      exact absurd (by simp [hk]) this
    | some val =>
      rw [hv] at hlook
      obtain ⟨s', k', hk', hs', hread⟩ := hd.entry e.1 val hlook
      obtain ⟨rfl, rfl⟩ := split_unique hs (hd.header s' hs').noColon (hk.symm.trans hk')
      have hkb : KeyBytes k := fun c hc => hkey c (by simp [hk, hc])
      have hdrop : e.1.drop (s.length + 1) = k := by
        rw [hk, List.drop_append, List.drop_eq_nil_of_le (by omega)]
        simp
      rw [hdrop, hk, Option.getD_some]
      exact reads_entry hread ⟨hkb.zero_notMem, hl.val _ _ hlook⟩ hkb.lower_eq s d'

/-- A section, as it stands in the file. -/
theorem reads_section {s : Str} (hs : s ∈ iniparserSections d) {sec : Str}
    (hsec : s = [] → sec = []) (d' : Dictionary) :
    Reads (between sec d') (iniparserDumpsectionIni d s)
      (between s (setAll d' (printed d s))) := by
  obtain ⟨hcolon, v, hlook⟩ := mem_iniparserSections.mp hs
  obtain ⟨rfl, hname⟩ := hl.header s v hlook hcolon
  have hfind : iniparserFindEntry d s = true := by
    have hlen : s.length ≤ asciiLineSz + 1 - 1 := hname.short.trans (by simp [asciiLineSz])
    rw [iniparserFindEntry, strlwc_eq_self hname.bytes.zero_notMem hname.bytes.lower_eq hlen, hlook]
    rfl
  rw [iniparserDumpsectionIni, if_pos hfind, printed, setAll_cons]
  have hheader : lit "\n[" ++ s ++ lit "]\n" = [10] ++ (91 :: s ++ [93] ++ [10]) := by
    simp [show lit "\n[" = [10, 91] from rfl, show lit "]\n" = [93, 10] from rfl]
  rw [hheader]
  refine Reads.trans (Reads.trans (Reads.trans (reads_blank sec d') ?_)
    (reads_entries hl hd _ (List.Subset.refl _) hcolon _)) (reads_blank s _)
  exact reads_header (hd.header s hlook) hname.bytes.zero_notMem hname.bytes.lower_eq
    hname.noBracket hname.noNewline hname.short hsec d'

/-- The sections, as they stand in the file. -/
theorem reads_sections (ss : List Str) (hss : ss ⊆ iniparserSections d) {sec : Str}
    (hsec : ∀ s ∈ ss.head?, s = [] → sec = []) (hnamed : ∀ s ∈ ss.tail, s ≠ [])
    (d' : Dictionary) : ∃ sec', Reads (between sec d') (ss.flatMap (iniparserDumpsectionIni d))
      (between sec' (setAll d' (ss.flatMap (printed d)))) := by
  induction ss generalizing sec d' with
  | nil => exact ⟨sec, Reads.nil _⟩
  | cons s ss ih =>
    have hhead : ∀ s' ∈ ss.head?, s' = [] → s = [] := fun s' hs' hnil =>
      absurd hnil (hnamed s' (List.mem_of_head? hs'))
    obtain ⟨sec', h⟩ := ih (fun _ h => hss (List.mem_cons_of_mem _ h)) hhead
      (fun s' hs' => hnamed s' (List.mem_of_mem_tail hs')) (setAll d' (printed d s))
    refine ⟨sec', ?_⟩
    rw [List.flatMap_cons, List.flatMap_cons, setAll_append]
    exact Reads.trans (reads_section hl hd (hss List.mem_cons_self) (hsec s rfl) d') h

/-- Every key stands in the file, and with its value. -/
theorem lookup_printed (k : Str) :
    (setAll dictionaryNew ((iniparserSections d).flatMap (printed d))).lookup k = d.lookup k := by
  have hm : ∀ e ∈ (iniparserSections d).flatMap (printed d),
      d.lookup e.1 = some (e.2.map cstr) := by
    intro e he
    obtain ⟨s, hs, he⟩ := List.mem_flatMap.mp he
    rcases List.mem_cons.mp he with rfl | he
    · obtain ⟨hcolon, v, hlook⟩ := mem_iniparserSections.mp hs
      rw [hlook, (hl.header s v hlook hcolon).1]
      rfl
    · have hlook := (mem_sectionEntries.mp he).1
      rw [hlook]
      cases hv : e.2 with
      | none => rfl
      | some val => rw [Option.map_some, cstr_eq_self (hl.val _ _ (hv ▸ hlook))]
  rw [lookup_setAll hm]
  split
  · rfl
  · next hk =>
    rw [lookup_dictionaryNew]
    by_contra hne
    obtain ⟨v, hlook⟩ := Option.ne_none_iff_exists'.mp (Ne.symm hne)
    refine hk (List.mem_map.mpr ⟨(k, v), List.mem_flatMap.mpr ?_, rfl⟩)
    cases v with
    | none =>
      exact ⟨k, mem_iniparserSections.mpr ⟨(hd.header k hlook).noColon, none, hlook⟩,
        List.mem_cons_self⟩
    | some val =>
      obtain ⟨s, k', rfl, hs, -⟩ := hd.entry k val hlook
      exact ⟨s, mem_iniparserSections.mpr ⟨(hd.header s hs).noColon, none, hs⟩,
        List.mem_cons_of_mem _ (mem_sectionEntries.mpr ⟨hlook, k', rfl⟩)⟩

/-- **A savable dictionary is loaded as it was dumped.** -/
theorem iniparserLoad_dumpIni :
    ∃ d', iniparserLoad (some (iniparserDumpIni d)) = some d' ∧ d'.lookup = d.lookup := by
  by_cases hsec : iniparserSections d = []
  · -- no section, and so no entry either
    have hnone : ∀ k, d.lookup k = none := fun k => by
      rw [← lookup_printed hl hd, hsec, List.flatMap_nil, setAll_nil, lookup_dictionaryNew]
    have hentries : d.entries = [] := List.eq_nil_iff_forall_not_mem.mpr fun e he => by
      have := Dictionary.lookup_eq_some_iff.mpr he
      rw [hnone] at this
      cases this
    refine ⟨dictionaryNew, ?_, funext fun k => by rw [hnone, lookup_dictionaryNew]⟩
    rw [iniparserDumpIni, if_pos hsec, hentries]
    rfl
  · obtain ⟨sec', h⟩ := reads_sections hl hd _ (List.Subset.refl _)
      (fun _ _ _ => rfl) hd.named dictionaryNew
    refine ⟨_, ?_, funext (lookup_printed hl hd)⟩
    have hall := (Reads.trans h (reads_blank sec' _)).loadAll
    rw [iniparserDumpIni, if_neg hsec, iniparserLoad]
    change (loadAll (between [] dictionaryNew) _).bind _ = _
    rw [show lit "\n" = [10] from rfl, hall]
    rfl

end Savable

/-! ## Setting parameters, saving and loading -/

/-- A setting of the program. -/
inductive Setter where
  | string (entry val : Str)
  | int (entry : Str) (val : ℤ)

/-- The parameter that is set. -/
def Setter.entry : Setter → Str
  | .string entry _ => entry
  | .int entry _ => entry

/-- `rk_param_set_string` or `rk_param_set_int`. -/
def Store.apply (p : Store) : Setter → Option Store
  | .string entry val => rkParamSetString p entry (some val)
  | .int entry val => rkParamSetInt p entry val

/-- Settings in turn. -/
def setters : List Setter → Store → Option Store
  | [], p => some p
  | op :: ops, p => (p.apply op).bind (setters ops)

/-- **The parameter is in a section** of the dictionary. -/
def Setter.InSection (d : Dictionary) (op : Setter) : Prop :=
  ∃ s k, strlwc op.entry (asciiLineSz + 1) = s ++ colon :: k ∧ d.lookup s = some none

/-- The dictionary in use can be saved. -/
def Store.Savable (p : Store) : Prop := ∀ d, p.iniD = .live d → d.Savable

/-- Setting a parameter keeps the invariant of a dictionary that was loaded. -/
theorem apply_loaded {p p' : Store} {d₀ : Dictionary} {op : Setter} (hd : d.Loaded)
    (hp : p.iniD = .live d) (hop : op.InSection d₀) (h : p.apply op = some p') :
    ∃ d', p'.iniD = .live d' ∧ d'.Loaded := by
  obtain ⟨s, k, hkey, -⟩ := hop
  have hset : ∀ val, (iniparserSet d op.entry (some val)).Loaded := fun val =>
    hd.set (keyBytes_strlwc _ _) (by simp [hkey])
  have hlive : ∀ val, p.set op.entry (some val) = some p' →
      ∃ d', p'.iniD = .live d' ∧ d'.Loaded := by
    intro val hval
    rw [Store.set, hp] at hval
    exact Option.some.inj hval ▸ ⟨_, rfl, hset val⟩
  cases op with
  | string entry val => exact hlive val h
  | int entry val =>
    rw [Store.apply, rkParamSetInt] at h
    split at h
    · exact hlive _ h
    · cases h

theorem setters_loaded {ops : List Setter} {p p' : Store} {d₀ : Dictionary} (hd : d.Loaded)
    (hp : p.iniD = .live d) (hops : ∀ op ∈ ops, op.InSection d₀) (h : setters ops p = some p') :
    ∃ d', p'.iniD = .live d' ∧ d'.Loaded := by
  induction ops generalizing p d with
  | nil => exact Option.some.inj h ▸ ⟨d, hp, hd⟩
  | cons op ops ih =>
    obtain ⟨p₁, h₁, hrest⟩ := Option.bind_eq_some_iff.mp h
    obtain ⟨d₁, hp₁, hd₁⟩ := apply_loaded hd hp (hops op List.mem_cons_self) h₁
    exact ih hd₁ hp₁ (fun op' h' => hops op' (List.mem_cons_of_mem _ h')) hrest

/-- A dictionary with the same map is dumped to the log like the one that can be saved. -/
theorem rkParamDump_of_lookup {d' : Dictionary} (hl : d.Loaded) (hd : d.Savable)
    (h : d'.lookup = d.lookup) : rkParamDump d' = some () := by
  refine if_pos fun s hs => ?_
  obtain ⟨hcolon, v, hlook⟩ := mem_iniparserSections.mp hs
  rw [h] at hlook
  obtain ⟨rfl, hname⟩ := hl.header s v hlook hcolon
  have hlen : s.length ≤ asciiLineSz + 1 - 1 := hname.short.trans (by simp [asciiLineSz])
  rw [iniparserGetsecnkeys, strlwc_eq_self hname.bytes.zero_notMem hname.bytes.lower_eq hlen]
  split
  · -- the same entries, perhaps in another order
    have hperm : (sectionEntries d' s).Perm (sectionEntries d s) := by
      rw [List.perm_ext_iff_of_nodup (nodup_sectionEntries d' s) (nodup_sectionEntries d s)]
      exact fun e => by rw [mem_sectionEntries, mem_sectionEntries, h]
    rw [hperm.length_eq]
    exact hd.keys s hlook
  · exact Nat.zero_le _

/-- **Saved parameters are read back**, by `rk_param_reload` and by `rk_param_init`. -/
theorem config_survives {file : Option (List UInt8)} {d₀ : Dictionary}
    (hload : iniparserLoad file = some d₀) {ops : List Setter}
    (hops : ∀ op ∈ ops, op.InSection d₀) {p : Store}
    (hrun : setters ops ⟨file, .live d₀⟩ = some p) (hsav : p.Savable)
    (factory : Option (List UInt8)) :
    ∃ p₁, rkParamSave true p = some (0, p₁) ∧
      (∃ p₂, rkParamReload p₁ = some (0, p₂) ∧ ∀ entry default,
        rkParamGetString p₂ entry default = rkParamGetString p entry default) ∧
      ∃ p₂, rkParamInit factory p₁ = some (0, p₂) ∧ ∀ entry default,
        rkParamGetString p₂ entry default = rkParamGetString p entry default := by
  obtain ⟨d, hp, hl⟩ := setters_loaded (iniparserLoad_loaded hload) rfl hops hrun
  have hd := hsav d hp
  obtain ⟨d', hload', hlook⟩ := iniparserLoad_dumpIni hl hd
  have hdump := rkParamDump_of_lookup hl hd hlook
  have hget : ∀ p₂ : Store, p₂.iniD = .live d' → ∀ entry default,
      rkParamGetString p₂ entry default = rkParamGetString p entry default := by
    intro p₂ hp₂ entry default
    rw [rkParamGetString, rkParamGetString, hp₂, hp]
    simp only [iniparserGetstring, dictionaryGet, hlook]
  refine ⟨{ p with file := some (iniparserDumpIni d) }, by simp only [rkParamSave, hp, if_true],
    ?_, ?_⟩
  · refine ⟨⟨some (iniparserDumpIni d), .live d'⟩, ?_, hget _ rfl⟩
    rw [rkParamReload, hp]
    simp only [hload', Store.use, hdump, Option.map_some]
  · refine ⟨⟨some (iniparserDumpIni d), .live d'⟩, ?_, hget _ rfl⟩
    rw [rkParamInit]
    simp only [hload', Store.use, hdump, Option.map_some]

/-- One section with one entry. -/
def smallFile : List UInt8 := lit "[a]\nk = v\n"

/-- The store of this file after setting the entry. -/
def smallStore (val : Str) : Option Store :=
  (iniparserLoad (some smallFile)).bind fun d =>
    setters [.string (lit "a:k") val] ⟨some smallFile, .live d⟩

theorem smallDictionary_savable
    (h : d.entries = [(lit "a", none), (lit "a:k", some (lit "w"))]) : d.Savable := by
  have hmem : ∀ s v, d.lookup s = some v →
      (s = lit "a" ∧ v = none) ∨ (s = lit "a:k" ∧ v = some (lit "w")) := by
    intro s v hlook
    simpa [h] using Dictionary.lookup_eq_some_iff.mp hlook
  have hsection : d.lookup (lit "a") = some none :=
    Dictionary.lookup_eq_some_iff.mpr (h ▸ List.mem_cons_self)
  have hword : ∀ q, lit "w" ≠ [q, q] ∧ (q ≠ 119 → ¬ Quoted q (lit "w")) := by
    refine fun q => ⟨by simp [show lit "w" = [119] from rfl], ?_⟩
    rintro hq ⟨c, w, hval, -⟩
    exact hq (List.cons.inj hval).1.symm
  refine ⟨?_, ?_, ?_, ?_⟩
  · intro s hs
    obtain ⟨rfl, -⟩ | ⟨-, h⟩ := hmem s none hs
    · exact ⟨by decide, by decide⟩
    · cases h
  · rw [iniparserSections, h]
    intro s hs
    have hcolon : ¬ colon ∉ lit "a:k" := by decide
    simp [show colon ∉ lit "a" by decide, hcolon] at hs
  · intro key val hlook
    obtain ⟨-, h⟩ | ⟨rfl, h⟩ := hmem key _ hlook
    · cases h
    · obtain rfl := Option.some.inj h
      exact ⟨lit "a", lit "k", by decide, hsection,
        { nonempty := by decide
          noEquals := by decide
          noNewline := by decide
          trim := by decide
          noComment := by decide
          noHeader := by decide
          plain :=
            { trim := by decide
              noComment := by decide
              noBackslash := by decide
              notEmptyQuotes := ⟨(hword 34).1, (hword 39).1⟩
              notQuoted := ⟨(hword 34).2 (by decide), (hword 39).2 (by decide)⟩ }
          fits := by decide }⟩
  · intro s _
    have hle : (sectionEntries d s).length ≤ d.entries.length := List.length_filter_le _ _
    rw [h] at hle
    exact hle.trans (show 2 ≤ maxSectionKeys by decide)

/-- A word is read back. -/
theorem config_survives_word : ∃ p p₁ p₂, smallStore (lit "w") = some p ∧
    rkParamSave true p = some (0, p₁) ∧ rkParamReload p₁ = some (0, p₂) ∧
    ∀ entry default, rkParamGetString p₂ entry default = rkParamGetString p entry default := by
  have hentries : (iniparserLoad (some smallFile)).map (fun d =>
      (d.entries, (iniparserSet d (lit "a:k") (some (lit "w"))).entries)) =
      some ([(lit "a", none), (lit "a:k", some (lit "v"))],
        [(lit "a", none), (lit "a:k", some (lit "w"))]) := by decide +kernel
  obtain ⟨d₀, hload, hd₀⟩ := Option.map_eq_some_iff.mp hentries
  obtain ⟨hbefore, hafter⟩ := Prod.mk.inj hd₀
  have hkey : Setter.InSection d₀ (.string (lit "a:k") (lit "w")) :=
    ⟨lit "a", lit "k", rfl,
      Dictionary.lookup_eq_some_iff.mpr (hbefore ▸ List.mem_cons_self)⟩
  obtain ⟨p₁, hsave, ⟨p₂, hreload, hget⟩, -⟩ := config_survives
    (p := ⟨some smallFile, .live (iniparserSet d₀ (lit "a:k") (some (lit "w")))⟩) hload
    (fun op hop => List.mem_singleton.mp hop ▸ hkey) rfl
    (fun d hd => IniD.live.inj hd ▸ smallDictionary_savable hafter) none
  exact ⟨_, p₁, p₂, by rw [smallStore, hload]; rfl, hsave, hreload, hget⟩

/-- **A value with a semicolon is cut** where a comment would begin. -/
theorem semicolon_lost :
    (smallStore (lit "x;y")).bind (rkParamGetString · (lit "a:k") none) =
      some (some (lit "x;y")) ∧
    ((smallStore (lit "x;y")).bind fun p => (rkParamSave true p).bind fun r =>
      (rkParamReload r.2).bind fun r => rkParamGetString r.2 (lit "a:k") none) =
      some (some (lit "x")) := by
  decide +kernel

end RkIpc.Param
