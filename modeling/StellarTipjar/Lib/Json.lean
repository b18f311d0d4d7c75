import Mathlib.Data.List.Basic

/-!
# JSON values

A JSON value as a program holds it after parsing: numbers are 64-bit integers or floats (a float is
kept as the text it prints to), and an object is a map, given by its entries. Which entry comes first
in the list means nothing: an object is read by key, and printed in the order of its keys.

* `decimal` — the text of an integer, which determines it (`decimal_injective`);
* `parseDigits` — the number a text of digits denotes;
* `Json.get`, `Json.field` — the entry of an object;
* `Json.render` — the compact text of a value, with the usual escapes.
-/

namespace Lib

/-! ## Decimal text -/

/-- The decimal text of an integer. -/
def decimal (n : Int) : String := toString n

/-- Reading the digits back undoes writing them. -/
theorem natText_injective {m n : Nat} (h : m.repr = n.repr) : m = n := by
  have hd : Nat.toDigits 10 m = Nat.toDigits 10 n := by
    simpa only [Nat.toList_repr] using congrArg String.toList h
  rw [← Nat.ofDigitChars_ten_toDigits (n := m), hd, Nat.ofDigitChars_ten_toDigits]

theorem natText_ne_minus (m n : Nat) : m.repr ≠ "-" ++ n.repr := by
  intro h
  have hd : Nat.toDigits 10 m = '-' :: Nat.toDigits 10 n := by
    simpa [Nat.toList_repr] using congrArg String.toList h
  have hdigit : Char.isDigit '-' = true :=
    Nat.isDigit_of_mem_toDigits (b := 10) (n := m) (by decide) (by decide) (by rw [hd]; simp)
  exact absurd hdigit (by decide)

theorem decimal_injective : Function.Injective decimal := by
  intro m n h
  cases m with
  | ofNat m =>
    cases n with
    | ofNat n => rw [natText_injective h]
    | negSucc n => exact absurd h (natText_ne_minus m (n + 1))
  | negSucc m =>
    cases n with
    | ofNat n => exact absurd h.symm (natText_ne_minus n (m + 1))
    | negSucc n =>
      have hd : (m + 1).repr = (n + 1).repr := by
        have h' : "-" ++ (m + 1).repr = "-" ++ (n + 1).repr := h
        simpa using h'
      rw [Nat.succ.inj (natText_injective hd)]

/-- The number a list of digits denotes. -/
def parseDigits (digits : List Char) : Option Nat :=
  if digits.isEmpty || !digits.all Char.isDigit then none else some (Nat.ofDigitChars 10 digits 0)

theorem isDigit_toDigits {n : Nat} {c : Char} (h : c ∈ Nat.toDigits 10 n) : c.isDigit = true :=
  Nat.isDigit_of_mem_toDigits (by decide) (by decide) h

theorem parseDigits_toDigits (n : Nat) : parseDigits (Nat.toDigits 10 n) = some n := by
  have hall : (Nat.toDigits 10 n).all Char.isDigit = true :=
    List.all_eq_true.mpr fun c hc => isDigit_toDigits hc
  have hne : (Nat.toDigits 10 n).isEmpty = false := by
    simp [Nat.toDigits_ne_nil]
  rw [parseDigits, hall, hne]
  simp [Nat.ofDigitChars_ten_toDigits]

/-! ## Values -/

inductive JsonNumber where
  | posInt (n : UInt64)
  | negInt (n : Int)
  | float (text : String)
deriving DecidableEq, Repr

inductive Json where
  | null
  | bool (b : Bool)
  | number (n : JsonNumber)
  | string (s : String)
  | array (xs : List Json)
  | object (entries : List (String × Json))

namespace JsonNumber

def text : JsonNumber → String
  | posInt n => decimal n.toNat
  | negInt n => decimal n
  | float text => text

def asU64 : JsonNumber → Option UInt64
  | posInt n => some n
  | _ => none

end JsonNumber

namespace Json

/-- The entry of an object. -/
def get (entries : List (String × Json)) (key : String) : Option Json := entries.lookup key

/-- The entry of a value that is an object. -/
def field : Json → String → Option Json
  | .object entries, key => get entries key
  | _, _ => none

/-- The four digits after `\\u` for a control character. -/
def hex4 (n : Nat) : List Char :=
  [n / 4096 % 16, n / 256 % 16, n / 16 % 16, n % 16].map fun d => Nat.digitChar d

def escapeChar (c : Char) : List Char :=
  if c = '"' then ['\\', '"']
  else if c = '\\' then ['\\', '\\']
  else if c = '\n' then ['\\', 'n']
  else if c = '\r' then ['\\', 'r']
  else if c = '\t' then ['\\', 't']
  else if c.toNat = 8 then ['\\', 'b']
  else if c.toNat = 12 then ['\\', 'f']
  else if c.toNat < 32 then '\\' :: 'u' :: hex4 c.toNat
  else [c]

def quote (s : String) : String := String.ofList ('"' :: s.toList.flatMap escapeChar ++ ['"'])

/-- Inserts a rendered entry in the order of the keys. -/
def insertByKey (entry : String × String) : List (String × String) → List (String × String)
  | [] => [entry]
  | other :: rest =>
    if entry.1 < other.1 then entry :: other :: rest else other :: insertByKey entry rest

def join (separator : String) : List String → String
  | [] => ""
  | [s] => s
  | s :: rest => s ++ separator ++ join separator rest

mutual

def render : Json → String
  | .null => "null"
  | .bool b => if b then "true" else "false"
  | .number n => n.text
  | .string s => quote s
  | .array xs => "[" ++ join "," (renderAll xs) ++ "]"
  | .object entries =>
    let sorted := (renderEntries entries).foldr insertByKey []
    "\x7b" ++ join "," (sorted.map fun e => quote e.1 ++ ":" ++ e.2) ++ "\x7d"

def renderAll : List Json → List String
  | [] => []
  | x :: xs => render x :: renderAll xs

def renderEntries : List (String × Json) → List (String × String)
  | [] => []
  | (key, value) :: rest => (key, render value) :: renderEntries rest

end

end Json

end Lib
