import KPlugin.Runtime.PluginUtil

/-!
# The K terms of `json.cpp`

A `block *` is either a constant, which is an immediate with an odd tag and no
memory behind it, or a heap cell whose header names its constructor. The cells
the file builds and reads are `boolinj`, `zinj`, `stringinj`, `jsonlist`,
`jsonmember`, `json` under its two headers, and `inj` under its three; any other
symbol is a cell `json.cpp` does not know. JSON terms are the well-sorted part:
`Term.toBlock` lays them out as the K runtime does, lists right-nested and closed
by `dotList`.
-/

namespace KPlugin.Json

/-- The constants `json.cpp` names, and every other one. -/
inductive Const where
  | dotk
  | dotList
  | null
  | undef
  | eof
  | other (tag : ℕ)
deriving DecidableEq, Repr

/-- A `block *`. -/
inductive Block where
  /-- An immediate. -/
  | const (c : Const)
  /-- `boolinj` under `boolHdr`. -/
  | boolInj (data : Bool)
  /-- `zinj` under `intHdr`. -/
  | intInj (data : ℤ)
  /-- `stringinj` under `strHdr`. -/
  | stringInj (data : Bytes)
  /-- `jsonlist` under `listHdr`. -/
  | list (hd tl : Block)
  /-- `jsonmember` under `membHdr`. -/
  | member (key val : Block)
  /-- `json` under `objHdr`. -/
  | object (data : Block)
  /-- `json` under `listWrapHdr`. -/
  | listWrap (data : Block)
  /-- `inj` under `jsonHdr`. -/
  | jsonInj (data : Block)
  /-- `inj` under `ioErrorHdr`. -/
  | ioErrorInj (data : Block)
  /-- `inj` under `jsonPutResponseErrorHdr`. -/
  | putResponseError (data : Block)
  /-- A cell with any other header. -/
  | other (tag : ℕ) (data : Bytes)
deriving DecidableEq, Repr

def dotk : Block := .const .dotk
def dotList : Block := .const .dotList
def null : Block := .const .null
def undef : Block := .const .undef
def eof : Block := .const .eof

/-- What stops the code: the header of an immediate is read, a cell is read
under another type than its own, or `back` is called on an empty `vector`. -/
inductive Fault where
  | headerOfConstant
  | wrongCell
  | emptyStack
deriving DecidableEq, Repr

/-! ## JSON terms -/

mutual

/-- A term of sort `JSON` without `Float` and without JSON-RPC's undef. -/
inductive Term where
  | null
  | bool (b : Bool)
  | int (n : ℤ)
  | string (s : Bytes)
  | object (members : Members)
  | list (elements : Elements)

/-- The `JSONEntry` items of an object. -/
inductive Members where
  | nil
  | cons (key : Bytes) (val : Term) (rest : Members)

/-- The items of a list. -/
inductive Elements where
  | nil
  | cons (hd : Term) (tl : Elements)

end

mutual

/-- The block of a JSON term. -/
def Term.toBlock : Term → Block
  | .null => null
  | .bool b => .boolInj b
  | .int n => .intInj n
  | .string s => .stringInj s
  | .object ms => .object ms.toBlock
  | .list es => .listWrap es.toBlock

def Members.toBlock : Members → Block
  | .nil => dotList
  | .cons k v rest => .list (.member (.stringInj k) v.toBlock) rest.toBlock

def Elements.toBlock : Elements → Block
  | .nil => dotList
  | .cons hd tl => .list hd.toBlock tl.toBlock

end

def Members.length : Members → ℕ
  | .nil => 0
  | .cons _ _ rest => rest.length + 1

def Elements.length : Elements → ℕ
  | .nil => 0
  | .cons _ tl => tl.length + 1

end KPlugin.Json
