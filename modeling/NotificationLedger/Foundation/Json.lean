import Mathlib.Algebra.Group.Int.Defs
import Mathlib.Algebra.Group.Nat.Defs
import Mathlib.Tactic.Common

/-!
# JSON values and derived decoders

JSON values as `serde_json` holds them, and the part of derived decoding every record shares. A
decoder first sorts the entries of an object into one *slot* per field, refusing a repeated field
and, where the record asks for it, an unknown one; it then reads each slot. Keeping the two stages
apart lets a record decoder be the conjunction of its field readers.

Object entries are listed with distinct keys in the order they were inserted in, which is how
`serde_json` stores a map when it is built with `preserve_order`; two objects that list the same
entries in another order are two values here, and are printed as two texts.
-/

universe u

/-- A JSON value. -/
inductive Json
  | null
  | bool (b : Bool)
  | num (n : Int)
  | float (bits : UInt64)
  | str (s : String)
  | arr (items : List Json)
  | obj (fields : List (String × Json))

namespace Json

variable {α : Type u}

/-! ## Encoding -/

/-- An optional value, absent as `null`. -/
def ofOption (f : α → Json) : Option α → Json
  | none => null
  | some a => f a

/-! ## Printing

The compact form of `serde_json::to_vec`, as characters. -/

/-- One character of a string. -/
def escape (c : Char) : List Char :=
  if c = '"' then ['\\', '"']
  else if c = '\\' then ['\\', '\\']
  else if c = '\n' then ['\\', 'n']
  else if c = '\r' then ['\\', 'r']
  else if c = '\t' then ['\\', 't']
  else if c.toNat = 8 then ['\\', 'b']
  else if c.toNat = 12 then ['\\', 'f']
  else if c.toNat < 32 then
    ['\\', 'u', '0', '0', Nat.digitChar (c.toNat / 16), Nat.digitChar (c.toNat % 16)]
  else [c]

def quote (s : String) : List Char := '"' :: s.toList.flatMap escape ++ ['"']

def commas : List (List Char) → List Char
  | [] => []
  | [item] => item
  | item :: items => item ++ ',' :: commas items

mutual

/-- A floating-point number is printed by `printFloat`. -/
def print (printFloat : UInt64 → List Char) : Json → List Char
  | .null => "null".toList
  | .bool b => (toString b).toList
  | .num n => (toString n).toList
  | .float bits => printFloat bits
  | .str s => quote s
  | .arr items => '[' :: commas (printItems printFloat items) ++ [']']
  | .obj fields => '\x7b' :: commas (printFields printFloat fields) ++ ['\x7d']

def printItems (printFloat : UInt64 → List Char) : List Json → List (List Char)
  | [] => []
  | v :: rest => print printFloat v :: printItems printFloat rest

def printFields (printFloat : UInt64 → List Char) : List (String × Json) → List (List Char)
  | [] => []
  | f :: rest => printField printFloat f :: printFields printFloat rest

def printField (printFloat : UInt64 → List Char) : String × Json → List Char
  | (k, v) => quote k ++ ':' :: print printFloat v

end

/-! ## Slots -/

/-- The entry of `fields` whose key is one of `names`: `none` when it is repeated, `some none` when
it is missing. -/
def slot (names : List String) (fields : List (String × Json)) : Option (Option Json) :=
  match fields.filter fun f ↦ decide (f.1 ∈ names) with
  | [] => some none
  | [f] => some (some f.2)
  | _ => none

/-- One slot per field of a record. `names` lists, for each field, its key and its aliases; an array
is read by position. -/
def slots (names : List (List String)) (denyUnknown : Bool) : Json → Option (List (Option Json))
  | obj fields =>
    if denyUnknown && fields.any (fun f ↦ !names.any fun ns ↦ decide (f.1 ∈ ns)) then none
    else names.mapM fun ns ↦ slot ns fields
  | arr items => if items.length = names.length then some (items.map some) else none
  | _ => none

/-! ## Field readers -/

def asString : Json → Option String
  | str s => some s
  | _ => none

/-- An unsigned 64-bit number. -/
def asU64 : Json → Option UInt64
  | num n => if 0 ≤ n ∧ n < 2 ^ 64 then some (UInt64.ofNat n.toNat) else none
  | _ => none

/-- A variant without data, as its bare name or as an object holding `null` under its name. -/
def asVariant (read : String → Option α) : Json → Option α
  | str s => read s
  | obj [(s, null)] => read s
  | _ => none

/-- A field that must be present. -/
def required (read : Json → Option α) : Option Json → Option α
  | some v => read v
  | none => none

/-- A field that may be missing or `null`. -/
def optional (read : Json → Option α) : Option Json → Option (Option α)
  | none => some none
  | some null => some none
  | some v => (read v).map some

@[simp] theorem required_some (read : Json → Option α) (v : Json) :
    required read (some v) = read v := rfl

@[simp] theorem asString_str (s : String) : asString (str s) = some s := rfl

@[simp] theorem asVariant_str (read : String → Option α) (s : String) :
    asVariant read (str s) = read s := rfl

@[simp] theorem asU64_num (n : UInt64) : asU64 (num n.toNat) = some n := by
  have hlt := n.toNat_lt
  rw [asU64, if_pos ⟨by omega, by omega⟩]
  simp

/-- An optional field reads back what it wrote, provided no value is written as `null`. -/
theorem optional_ofOption {read : Json → Option α} {write : α → Json} {o : Option α}
    (hnull : ∀ a, write a ≠ null) (hread : ∀ a ∈ o, read (write a) = some a) :
    optional read (some (ofOption write o)) = some o := by
  cases o with
  | none => rfl
  | some a =>
    have hne := hnull a
    have hra := hread a rfl
    rw [ofOption]
    cases hw : write a <;> simp_all [optional]

end Json
