import KPlugin.Json.Block
import KPlugin.Runtime.Gmp

/-!
# `write_json`

The recursion over a block that drives a rapidjson `Writer`. The order of the
tests is the source's: the two constants are compared by address, then every
test reads the header, which an immediate does not have.
-/

namespace KPlugin.Json

/-- The calls on the `Writer`. -/
inductive WriterCall where
  | null
  | bool (b : Bool)
  | rawNumber (str : Bytes)
  | string (str : Bytes)
  | startObject
  | key (str : Bytes)
  | endObject
  | startArray
  | endArray
deriving DecidableEq, Repr

/-- Code that drives the `Writer`: the calls so far, and a fault if it stops. -/
abbrev Write := StateT (List WriterCall) (Except Fault)

def emit (c : WriterCall) : Write Unit := modify (· ++ [c])

/-- `((stringinj *)memb->key)->data`. -/
def keyData : Block → Write Bytes
  | .stringInj data => pure data
  | _ => throw .wrongCell

/-- `write_json`. -/
def writeJson : Block → Write Bool
  | .const .dotList => pure true
  | .const .null => do
    emit .null
    pure true
  | .const _ => throw .headerOfConstant
  | .boolInj data => do
    emit (.bool data)
    pure true
  | .intInj data => do
    emit (.rawNumber (int2string data))
    pure true
  | .stringInj data => do
    emit (.string data)
    pure true
  | .object data => do
    emit .startObject
    let returnValue ← writeJson data
    emit .endObject
    pure returnValue
  | .listWrap data => do
    emit .startArray
    let returnValue ← writeJson data
    emit .endArray
    pure returnValue
  | .list hd tl => do
    if ← writeJson hd then writeJson tl else pure false
  | .member key val => do
    let str ← keyData key
    emit (.key str)
    writeJson val
  | .jsonInj _ => pure false
  | .ioErrorInj _ => pure false
  | .putResponseError _ => pure false
  | .other _ _ => pure false

/-! ## The calls of a JSON term -/

mutual

/-- The calls that write a JSON term. -/
def Term.calls : Term → List WriterCall
  | .null => [.null]
  | .bool b => [.bool b]
  | .int n => [.rawNumber (int2string n)]
  | .string s => [.string s]
  | .object ms => .startObject :: ms.calls ++ [.endObject]
  | .list es => .startArray :: es.calls ++ [.endArray]

def Members.calls : Members → List WriterCall
  | .nil => []
  | .cons k v rest => .key k :: v.calls ++ rest.calls

def Elements.calls : Elements → List WriterCall
  | .nil => []
  | .cons hd tl => hd.calls ++ tl.calls

end

theorem run_emit (c : WriterCall) (before : List WriterCall) : (emit c).run before = .ok ((), before ++ [c]) := rfl

/-- Run the first part of a sequence. -/
theorem run_bind {α β : Type} {x : Write α} {before after : List WriterCall} {a : α}
    (first : x.run before = .ok (a, after)) (f : α → Write β) : (x >>= f).run before = (f a).run after := by
  rw [StateT.run_bind, first]
  rfl

mutual

/-- **`write_json` on a JSON term** makes its calls and returns `true`. -/
theorem writeJson_term (t : Term) (before : List WriterCall) :
    (writeJson t.toBlock).run before = .ok (true, before ++ t.calls) := by
  cases t with
  | null => rfl
  | bool b => rfl
  | int n => rfl
  | string s => rfl
  | object ms =>
    rw [Term.toBlock, writeJson, run_bind (run_emit _ _), run_bind (writeJson_members ms _), run_bind (run_emit _ _)]
    simp only [Term.calls, List.cons_append, List.append_assoc, List.nil_append]
    rfl
  | list es =>
    rw [Term.toBlock, writeJson, run_bind (run_emit _ _), run_bind (writeJson_elements es _), run_bind (run_emit _ _)]
    simp only [Term.calls, List.cons_append, List.append_assoc, List.nil_append]
    rfl

theorem writeJson_members (ms : Members) (before : List WriterCall) :
    (writeJson ms.toBlock).run before = .ok (true, before ++ ms.calls) := by
  cases ms with
  | nil =>
    rw [Members.calls, List.append_nil]
    rfl
  | cons k v rest =>
    have entry : (writeJson (.member (.stringInj k) v.toBlock)).run before =
        .ok (true, before ++ [.key k] ++ v.calls) := by
      rw [writeJson, keyData, pure_bind, run_bind (run_emit _ _)]
      exact writeJson_term v _
    rw [Members.toBlock, writeJson, run_bind entry, if_pos rfl, writeJson_members rest]
    simp only [Members.calls, List.cons_append, List.append_assoc, List.nil_append]

theorem writeJson_elements (es : Elements) (before : List WriterCall) :
    (writeJson es.toBlock).run before = .ok (true, before ++ es.calls) := by
  cases es with
  | nil =>
    rw [Elements.calls, List.append_nil]
    rfl
  | cons hd tl =>
    rw [Elements.toBlock, writeJson, run_bind (writeJson_term hd _), if_pos rfl, writeJson_elements tl,
      List.append_assoc]
    rfl

end

end KPlugin.Json
