import Mathlib.Data.List.Induction
import StellarTipjar.Lib.Int128
import StellarTipjar.Lib.JsonText

/-!
# Reading records from JSON objects

The rules of a derived deserializer for a record: each field is looked up by its name among the
members of the object, members of other names are ignored, a missing member is an error unless the
field is optional, and so are two members of one name.

A text can also be read into a value first. There an integer has 64 bits or is a float
(`Scalar.asValue`), and a later member takes the place of an earlier one of its name
(`Members.asMap`).

* `field`, `optionField` — one field of a record;
* `field_eq`, `optionField_eq` — a name that stands once is read from where it stands;
* `ReadsAs` — what a record reads from any object that has its members;
* `asMap_eq` — the members of an object without two of one name.
-/

namespace Lib

/-- The value of a member as a deserializer meets it. What arrays and objects hold is not looked
at. -/
inductive Scalar where
  | null
  | bool (b : Bool)
  | int (n : Int)
  | float
  | string (s : String)
  | compound
deriving DecidableEq

abbrev Members := List (String × Scalar)

def Doc.scalar : Doc → Scalar
  | .null => .null
  | .bool b => .bool b
  | .int n => .int n
  | .string s => .string s
  | .array _ => .compound
  | .object _ => .compound

@[simp] theorem Doc.scalar_bool (b : Bool) : (Doc.bool b).scalar = .bool b := rfl

@[simp] theorem Doc.scalar_int (n : Int) : (Doc.int n).scalar = .int n := rfl

@[simp] theorem Doc.scalar_string (s : String) : (Doc.string s).scalar = .string s := rfl

def scalarMember (e : String × Doc) : String × Scalar := (e.1, e.2.scalar)

/-- The entries of an object. -/
def Doc.entries : Doc → List (String × Doc)
  | .object entries => entries
  | _ => []

/-- The members of an object. -/
def Doc.members : Doc → Option Members
  | .object entries => some (entries.map scalarMember)
  | _ => none

/-! ## Fields -/

namespace Serde

variable {α : Type}

/-- A field that has to be there, once. -/
def field (name : String) (read : Scalar → Option α) (members : Members) : Option α :=
  match members.filter fun m => m.1 = name with
  | [m] => read m.2
  | _ => none

/-- A field that may be missing or null. -/
def optionField (name : String) (read : Scalar → Option α) (members : Members) :
    Option (Option α) :=
  match members.filter fun m => m.1 = name with
  | [] => some none
  | [m] => if m.2 = .null then some none else (read m.2).map some
  | _ => none

def readBool : Scalar → Option Bool
  | .bool b => some b
  | _ => none

def readString : Scalar → Option String
  | .string s => some s
  | _ => none

def readI128 : Scalar → Option I128
  | .int n => I128.ofInt? n
  | _ => none

def readU64 : Scalar → Option UInt64
  | .int n => if 0 ≤ n ∧ n < 2 ^ 64 then some (.ofNat n.toNat) else none
  | _ => none

def readU32 : Scalar → Option UInt32
  | .int n => if 0 ≤ n ∧ n < 2 ^ 32 then some (.ofNat n.toNat) else none
  | _ => none

@[simp] theorem readBool_bool (b : Bool) : readBool (.bool b) = some b := rfl

@[simp] theorem readString_string (s : String) : readString (.string s) = some s := rfl

@[simp] theorem readI128_int (n : I128) : readI128 (.int n.val) = some n := I128.ofInt?_eq_some.mpr rfl

@[simp] theorem readU64_int (n : UInt64) : readU64 (.int n.toNat) = some n := by
  have hlt := n.toNat_lt
  rw [readU64, if_pos ⟨by omega, by omega⟩]
  simp

@[simp] theorem readU32_int (n : UInt32) : readU32 (.int n.toNat) = some n := by
  have hlt := n.toNat_lt
  rw [readU32, if_pos ⟨by omega, by omega⟩]
  simp

section Lookup

variable {name : String} {v : Scalar} {members : Members} {read : Scalar → Option α}

/-- A name that stands once among the members is found where it stands. -/
theorem filter_name (hnodup : (members.map Prod.fst).Nodup) (hmem : (name, v) ∈ members) :
    members.filter (fun m => m.1 = name) = [(name, v)] := by
  induction members with
  | nil => cases hmem
  | cons m rest ih =>
    obtain ⟨hfresh, hrest⟩ := List.nodup_cons.mp hnodup
    rcases List.mem_cons.mp hmem with rfl | hmem
    · have hnone : rest.filter (fun m => m.1 = name) = [] := by
        rw [List.filter_eq_nil_iff]
        intro m hm hname
        exact hfresh (List.mem_map.mpr ⟨m, hm, of_decide_eq_true hname⟩)
      rw [List.filter_cons_of_pos (by simp), hnone]
    · have hother : m.1 ≠ name := by
        intro hname
        exact hfresh (hname ▸ List.mem_map.mpr ⟨_, hmem, rfl⟩)
      rw [List.filter_cons_of_neg (by simpa using hother), ih hrest hmem]

theorem field_eq (hnodup : (members.map Prod.fst).Nodup) (hmem : (name, v) ∈ members) :
    field name read members = read v := by
  rw [field, filter_name hnodup hmem]

theorem optionField_eq (hnodup : (members.map Prod.fst).Nodup) (hmem : (name, v) ∈ members) :
    optionField name read members = if v = .null then some none else (read v).map some := by
  rw [optionField, filter_name hnodup hmem]

end Lookup

/-- Members without two of one name that include `own` are read as `a`, whatever else there is and in
any order. -/
def ReadsAs (read : Members → Option α) (a : α) (own : List (String × Doc)) : Prop :=
  ∀ members : Members, (members.map Prod.fst).Nodup → (∀ e ∈ own, scalarMember e ∈ members) →
    read members = some a

end Serde

/-! ## Values -/

/-- A number of a value is a 64-bit integer, signed or not, or a float. -/
def Scalar.asValue : Scalar → Scalar
  | .int n => if -2 ^ 63 ≤ n ∧ n < 2 ^ 64 then .int n else .float
  | v => v

namespace Members

/-- Puts a member into a map, in the place of one of its name. -/
def insert (map : Members) (name : String) (v : Scalar) : Members :=
  map.filter (fun m => m.1 ≠ name) ++ [(name, v)]

/-- The map of the members. -/
def asMap (members : Members) : Members :=
  members.foldl (fun map m => map.insert m.1 m.2.asValue) []

theorem insert_of_not_mem {map : Members} {name : String} (h : name ∉ map.map Prod.fst)
    (v : Scalar) : map.insert name v = map ++ [(name, v)] := by
  unfold insert
  rw [List.filter_eq_self.mpr]
  intro m hm
  have hne : m.1 ≠ name := fun hname => h (hname ▸ List.mem_map.mpr ⟨m, hm, rfl⟩)
  simpa using hne

theorem asMap_eq {members : Members} (hnodup : (members.map Prod.fst).Nodup) :
    members.asMap = members.map fun m => (m.1, m.2.asValue) := by
  induction members using List.reverseRecOn with
  | nil => rfl
  | append_singleton members m ih =>
    rw [List.map_append] at hnodup
    obtain ⟨hinit, -, hdisjoint⟩ := List.nodup_append.mp hnodup
    have hlast : asMap (members ++ [m]) = (asMap members).insert m.1 m.2.asValue := by
      unfold asMap
      rw [List.foldl_append]
      rfl
    rw [hlast, ih hinit, insert_of_not_mem, List.map_append]
    · rfl
    · intro hmem
      rw [List.map_map] at hmem
      exact hdisjoint m.1 hmem m.1 (List.mem_singleton_self _) rfl

end Members

end Lib
