import RkIpc.Server.Socket

/-!
# Request handlers

Every handler of the server reads its operands, calls one operation, writes the reply and returns
to `rec_thread`. What differs is the list of operands, the operation, the list of reply words, and
whether the result of the operation is returned or zero, so a handler is given by these. Each read
and write is tested against `SOCKERR_CLOSED` only, and returns `-1` then.

Three handlers call no operation and print their operand; their operation is `LOG_DEBUG`.

## Main definitions

* `Operand`, `Reply`, `Returned`, `Handler`: what a handler is made of
* `readOperands`, `writeReplies`, `serve`: the body of a handler
* `intGetter`, `intSetter`, `strGetter`, `strSetter`, ...: the families of handlers
-/

namespace RkIpc.Server

open Imperative Wire

/-- How an operand is read. A string is a length word, `malloc`, and as many bytes. -/
inductive Operand where
  /-- an `int` -/
  | int
  /-- a string, whatever its length -/
  | str
  /-- a string if the length is not zero, a null pointer if it is -/
  | strOrNull
  /-- a string if the length is not zero; the handler returns `-1` if it is -/
  | strOrFail
  /-- a string if the length is not zero; the handler returns `0` if it is -/
  | strOrSkip
deriving DecidableEq, Repr

/-- What a handler writes. -/
inductive Reply where
  /-- the result of the operation -/
  | ret
  /-- a status word that is always zero -/
  | zero
  /-- an `int` the operation has set -/
  | int (k : ℕ)
  /-- the length of a string the operation has set, and its bytes -/
  | str (k : ℕ)
deriving DecidableEq, Repr

/-- What a handler returns after its reply. -/
inductive Returned where
  | zero
  | ret
deriving DecidableEq, Repr

/-- **A handler**: its operands, its operation, its reply, and what it returns. -/
structure Handler where
  operands : List Operand
  op : String
  reply : List Reply
  returned : Returned
deriving DecidableEq, Repr

/-! ## The operands -/

/-- An `int` variable is read. -/
def readWord (env : Env) : Program Conn ℤ Buf := do
  let v ← newMemory env 4
  readOrClose v 4

/-- The length word of a string. -/
def readLength (env : Env) : Program Conn ℤ Buf := do
  let len ← readWord env
  record (.length len)
  pure len

/-- `malloc(len)` and the bytes of a string. -/
def readString (env : Env) (len : Buf) : Program Conn ℤ Arg := do
  match ← malloc env len.toInt with
  -- `sock_read` returns `SOCKERR_OK` at once for a negative count
  | none => pure (.str len none)
  | some value => do
    let value ← readOrClose value len.toInt
    pure (.str len (some value))

/-- One operand. -/
def readOperand (env : Env) : Operand → Program Conn ℤ Arg
  | .int => do
    let v ← readWord env
    pure (.int v)
  | .str => do
    let len ← readLength env
    readString env len
  | .strOrNull => do
    let len ← readLength env
    if len.toInt = 0 then pure (.str len none) else readString env len
  | .strOrFail => do
    let len ← readLength env
    if len.toInt = 0 then Program.exit (-1) else readString env len
  | .strOrSkip => do
    let len ← readLength env
    if len.toInt = 0 then Program.exit 0 else readString env len

/-- The operands, in order. -/
def readOperands (env : Env) : List Operand → Program Conn ℤ (List Arg)
  | [] => pure []
  | o :: os => do
    let arg ← readOperand env o
    let args ← readOperands env os
    pure (arg :: args)

/-! ## The operation and the reply -/

/-- The operation is called. -/
def callOp (env : Env) (op : String) (args : List Arg) : Program Conn ℤ OpResult := fun c =>
  (.value (env.op c.calls op),
    { c with calls := c.calls + 1, log := c.log ++ [Event.call op args] })

/-- One item of the reply. -/
def writeReply (res : OpResult) : Reply → Program Conn ℤ Unit
  | .ret => writeOrClose (encode32 res.ret)
  | .zero => writeOrClose (encode32 0)
  | .int k => writeOrClose (encode32 (res.ints.getD k 0))
  | .str k => do
    let value := res.strs.getD k []
    writeOrClose (encode32 value.length)
    writeOrClose value

/-- The reply, in order. -/
def writeReplies (res : OpResult) : List Reply → Program Conn ℤ Unit
  | [] => pure ()
  | r :: rs => do
    writeReply res r
    writeReplies res rs

/-- **The body of a handler.** -/
def serve (env : Env) (h : Handler) : Program Conn ℤ ℤ := do
  let args ← readOperands env h.operands
  let res ← callOp env h.op args
  writeReplies res h.reply
  match h.returned with
  | .zero => pure 0
  | .ret => pure res.ret

/-! ## The families of handlers -/

/-- `err = op(id, &value)`, with an `int` value. -/
def intGetter (op : String) : Handler := ⟨[.int], op, [.int 0, .ret], .zero⟩

/-- `err = op(id, value)`, with an `int` value. -/
def intSetter (op : String) : Handler := ⟨[.int, .int], op, [.ret], .zero⟩

/-- `err = op(id, &value)`, with a string value. -/
def strGetter (op : String) : Handler := ⟨[.int], op, [.str 0, .ret], .zero⟩

/-- `ret = op(id, value)`, with a string value. -/
def strSetter (op : String) : Handler := ⟨[.int, .strOrSkip], op, [.ret], .zero⟩

/-- `err = op(&value)`, with an `int` value. -/
def globalIntGetter (op : String) : Handler := ⟨[], op, [.int 0, .ret], .zero⟩

/-- `err = op(value)`, with an `int` value. -/
def globalIntSetter (op : String) : Handler := ⟨[.int], op, [.ret], .zero⟩

/-- `err = op(&value)`, with a string value. -/
def globalStrGetter (op : String) : Handler := ⟨[], op, [.str 0, .ret], .zero⟩

/-- `ret = op(value)`, with a string value. -/
def globalStrSetter (op : String) : Handler := ⟨[.strOrSkip], op, [.ret], .zero⟩

/-- `err = op()`. -/
def command (op : String) : Handler := ⟨[], op, [.ret], .zero⟩

/-- `ret = op(id)`. -/
def idCommand (op : String) : Handler := ⟨[.int], op, [.ret], .zero⟩

/-- A string that is printed and not answered. -/
def logOnly : Handler := ⟨[.strOrSkip], "LOG_DEBUG", [], .zero⟩

end RkIpc.Server
