import StellarTipjar.Lib.Json

/-!
# The text of a JSON document

A document as a serializer writes it: objects keep the order of their entries, and there is no
whitespace. The text of a document is self-delimiting: with something behind it that is no digit,
where it ends can be told from the text alone, and so can the document (`Doc.delimited`).

* `escapeChar_append_inj`, `quote_append_inj` — strings;
* `decimal_append_inj` — numbers, which end where the digits end;
* `Doc.text_injective` — the text determines the document.
-/

namespace Lib

/-! ## Strings -/

namespace Json

/-- The control character whose four digits are given. -/
def controlOfHex (digits : List Char) : Option Char :=
  ((List.range 32).find? fun n => hex4 n = digits).map Char.ofNat

/-- Reads one character of a quoted string, and what follows it. -/
def readChar : List Char → Option (Char × List Char)
  | '\\' :: '"' :: x => some ('"', x)
  | '\\' :: '\\' :: x => some ('\\', x)
  | '\\' :: 'n' :: x => some ('\n', x)
  | '\\' :: 'r' :: x => some ('\r', x)
  | '\\' :: 't' :: x => some ('\t', x)
  | '\\' :: 'b' :: x => some (Char.ofNat 8, x)
  | '\\' :: 'f' :: x => some (Char.ofNat 12, x)
  | '\\' :: 'u' :: a :: b :: c :: d :: x => (controlOfHex [a, b, c, d]).map (·, x)
  | c :: x => some (c, x)
  | [] => none

/-- The control characters are told apart by their escapes. -/
theorem find_hex4 : ∀ n < 32, (List.range 32).find? (fun m => hex4 m = hex4 n) = some n := by
  decide

/-- A character that is not a backslash stands for itself. -/
theorem readChar_of_ne {c : Char} (h : c ≠ '\\') (x : List Char) :
    readChar (c :: x) = some (c, x) := by
  unfold readChar
  split <;> simp_all

/-- Reading undoes escaping. -/
theorem readChar_escapeChar (c : Char) (x : List Char) :
    readChar (escapeChar c ++ x) = some (c, x) := by
  have hchar : ∀ {n}, c.toNat = n → Char.ofNat n = c := by
    rintro _ rfl
    exact Char.ofNat_toNat c
  unfold escapeChar
  by_cases h₁ : c = '"'
  · rw [if_pos h₁, h₁]
    rfl
  by_cases h₂ : c = '\\'
  · rw [if_neg h₁, if_pos h₂, h₂]
    rfl
  rw [if_neg h₁, if_neg h₂]
  by_cases h₃ : c = '\n'
  · rw [if_pos h₃, h₃]
    rfl
  by_cases h₄ : c = '\r'
  · rw [if_neg h₃, if_pos h₄, h₄]
    rfl
  by_cases h₅ : c = '\t'
  · rw [if_neg h₃, if_neg h₄, if_pos h₅, h₅]
    rfl
  rw [if_neg h₃, if_neg h₄, if_neg h₅]
  by_cases h₆ : c.toNat = 8
  · rw [if_pos h₆]
    exact congrArg (fun c => some (c, x)) (hchar h₆)
  by_cases h₇ : c.toNat = 12
  · rw [if_neg h₆, if_pos h₇]
    exact congrArg (fun c => some (c, x)) (hchar h₇)
  rw [if_neg h₆, if_neg h₇]
  by_cases h₈ : c.toNat < 32
  · -- one of the remaining control characters
    have hread : controlOfHex (hex4 c.toNat) = some c := by
      rw [controlOfHex, find_hex4 c.toNat h₈, Option.map_some, hchar rfl]
    rw [if_pos h₈]
    show (controlOfHex (hex4 c.toNat)).map (·, x) = some (c, x)
    rw [hread]
    rfl
  · rw [if_neg h₈]
    exact readChar_of_ne h₂ x

/-- An escaped character can be read back, whatever follows. -/
theorem escapeChar_append_inj {c d : Char} {x y : List Char}
    (h : escapeChar c ++ x = escapeChar d ++ y) : c = d ∧ x = y := by
  have hread := congrArg readChar h
  rw [readChar_escapeChar, readChar_escapeChar] at hread
  exact Prod.mk.inj (Option.some.inj hread)

/-- No escaped character begins as the end of the string does. -/
theorem escapeChar_append_ne_quote (c : Char) (x y : List Char) :
    escapeChar c ++ x ≠ '"' :: y := by
  intro h
  have hread := congrArg readChar h
  rw [readChar_escapeChar, readChar_of_ne (by decide)] at hread
  -- it would have to be the quote, which is escaped
  obtain ⟨rfl, rfl⟩ := Prod.mk.inj (Option.some.inj hread)
  have hhead : '\\' = '"' := (List.cons.inj (show '\\' :: '"' :: x = '"' :: x from h)).1
  exact absurd hhead (by decide)

/-- The characters of a string as they stand between the quotes, and the closing quote. -/
def quotedTail (s : List Char) : List Char := s.flatMap escapeChar ++ ['"']

/-- So can the rest of a string, up to the closing quote. -/
theorem quotedTail_append_inj {s t x y : List Char}
    (h : quotedTail s ++ x = quotedTail t ++ y) : s = t ∧ x = y := by
  induction s generalizing t with
  | nil =>
    cases t with
    | nil => exact ⟨rfl, by simpa [quotedTail] using h⟩
    | cons d t =>
      simp only [quotedTail, List.flatMap_nil, List.flatMap_cons, List.nil_append,
        List.append_assoc, List.cons_append] at h
      exact absurd h.symm (escapeChar_append_ne_quote d _ _)
  | cons c s ih =>
    cases t with
    | nil =>
      simp only [quotedTail, List.flatMap_nil, List.flatMap_cons, List.nil_append,
        List.append_assoc, List.cons_append] at h
      exact absurd h (escapeChar_append_ne_quote c _ _)
    | cons d t =>
      simp only [quotedTail, List.flatMap_cons, List.append_assoc] at h
      obtain ⟨rfl, hrest⟩ := escapeChar_append_inj h
      obtain ⟨rfl, rfl⟩ := ih (by simpa only [quotedTail, List.append_assoc] using hrest)
      exact ⟨rfl, rfl⟩

/-- And a whole string. -/
theorem quote_append_inj {s t : String} {x y : List Char}
    (h : (quote s).toList ++ x = (quote t).toList ++ y) : s = t ∧ x = y := by
  simp only [quote, String.toList_ofList, List.cons_append, List.cons.injEq, true_and] at h
  obtain ⟨hs, rfl⟩ := quotedTail_append_inj h
  exact ⟨String.toList_inj.mp hs, rfl⟩

end Json

/-! ## Numbers -/

/-- What may stand behind a number: anything but another digit. -/
def Ends (x : List Char) : Prop := ∀ c ∈ x.head?, c.isDigit = false

/-- A numeral ends where the digits end. -/
theorem digits_append_inj {l m x y : List Char} (hl : ∀ c ∈ l, c.isDigit = true)
    (hm : ∀ c ∈ m, c.isDigit = true) (hx : Ends x) (hy : Ends y) (h : l ++ x = m ++ y) :
    l = m ∧ x = y := by
  have htake : ∀ {l x : List Char}, (∀ c ∈ l, c.isDigit = true) → Ends x →
      (l ++ x).takeWhile Char.isDigit = l := by
    intro l x hl hx
    rw [List.takeWhile_append_of_pos hl]
    cases x with
    | nil => simp
    | cons c x =>
      have hc : c.isDigit = false := hx c rfl
      simp [hc]
  have hlm : l = m := by rw [← htake hl hx, h, htake hm hy]
  subst hlm
  exact ⟨rfl, List.append_cancel_left h⟩

theorem toList_decimal_ofNat (n : Nat) : (decimal n).toList = Nat.toDigits 10 n := by
  show n.repr.toList = _
  exact Nat.toList_repr

theorem toList_decimal_negSucc (n : Nat) :
    (decimal (Int.negSucc n)).toList = '-' :: Nat.toDigits 10 (n + 1) := by
  show ("-" ++ (n + 1).repr).toList = _
  simp [Nat.toList_repr]

/-- A natural number has no sign. -/
theorem digits_append_ne_minus (n : Nat) (x y : List Char) :
    Nat.toDigits 10 n ++ x ≠ '-' :: y := by
  intro h
  cases hd : Nat.toDigits 10 n with
  | nil => exact Nat.toDigits_ne_nil hd
  | cons c digits =>
    rw [hd, List.cons_append, List.cons.injEq] at h
    have hdigit : c.isDigit = true := isDigit_toDigits (n := n) (by rw [hd]; exact List.mem_cons_self)
    rw [h.1] at hdigit
    exact absurd hdigit (by decide)

/-- A number ends where its digits end. -/
theorem decimal_append_inj {m n : Int} {x y : List Char} (hx : Ends x) (hy : Ends y)
    (h : (decimal m).toList ++ x = (decimal n).toList ++ y) : m = n ∧ x = y := by
  have hall : ∀ k, ∀ c ∈ Nat.toDigits 10 k, c.isDigit = true := fun _ _ hc => isDigit_toDigits hc
  have hsame : (decimal m).toList = (decimal n).toList ∧ x = y := by
    cases m with
    | ofNat m =>
      cases n with
      | ofNat n =>
        simp only [Int.ofNat_eq_natCast, toList_decimal_ofNat] at h ⊢
        exact digits_append_inj (hall m) (hall n) hx hy h
      | negSucc n =>
        simp only [Int.ofNat_eq_natCast, toList_decimal_ofNat, toList_decimal_negSucc] at h
        exact absurd h (digits_append_ne_minus m _ _)
    | negSucc m =>
      cases n with
      | ofNat n =>
        simp only [Int.ofNat_eq_natCast, toList_decimal_ofNat, toList_decimal_negSucc] at h
        exact absurd h.symm (digits_append_ne_minus n _ _)
      | negSucc n =>
        simp only [toList_decimal_negSucc, List.cons_append, List.cons.injEq, true_and] at h ⊢
        exact digits_append_inj (hall (m + 1)) (hall (n + 1)) hx hy h
  exact ⟨decimal_injective (String.toList_inj.mp hsame.1), hsame.2⟩

/-! ## Documents -/

inductive Doc where
  | null
  | bool (b : Bool)
  | int (n : Int)
  | string (s : String)
  | array (elements : List Doc)
  | object (entries : List (String × Doc))

namespace Doc

mutual

/-- The compact text of a document. -/
def text : Doc → List Char
  | .null => "null".toList
  | .bool true => "true".toList
  | .bool false => "false".toList
  | .int n => (decimal n).toList
  | .string s => (Json.quote s).toList
  | .array [] => ['[', ']']
  | .array (a :: rest) => '[' :: (text a ++ elementsTail rest)
  | .object [] => ['\x7b', '\x7d']
  | .object ((key, a) :: rest) =>
    '\x7b' :: ((Json.quote key).toList ++ ':' :: (text a ++ entriesTail rest))

/-- The elements after the first, and the closing bracket. -/
def elementsTail : List Doc → List Char
  | [] => [']']
  | a :: rest => ',' :: (text a ++ elementsTail rest)

/-- The entries after the first, and the closing brace. -/
def entriesTail : List (String × Doc) → List Char
  | [] => ['\x7d']
  | (key, a) :: rest => ',' :: ((Json.quote key).toList ++ ':' :: (text a ++ entriesTail rest))

end

/-! ### The kind of a document -/

/-- Which kind of document a text begins, by its first character; none begins with a closing
bracket. -/
def kindOfChar (c : Char) : Nat :=
  if c = 'n' then 0 else if c = 't' ∨ c = 'f' then 1 else if c = '"' then 3
  else if c = '[' then 4 else if c = '\x7b' then 5 else if c = ']' then 6 else 2

def kind : Doc → Nat
  | .null => 0
  | .bool _ => 1
  | .int _ => 2
  | .string _ => 3
  | .array _ => 4
  | .object _ => 5

theorem kindOfChar_of_isDigit {c : Char} (h : c.isDigit = true) : kindOfChar c = 2 := by
  have hne : ∀ d : Char, d.isDigit = false → c ≠ d := by
    rintro d hd rfl
    rw [h] at hd
    cases hd
  simp [kindOfChar, hne 'n' (by decide), hne 't' (by decide), hne 'f' (by decide),
    hne '"' (by decide), hne '[' (by decide), hne '\x7b' (by decide), hne ']' (by decide)]

theorem head_decimal (n : Int) : ∃ c rest, (decimal n).toList = c :: rest ∧ kindOfChar c = 2 := by
  cases n with
  | ofNat n =>
    cases hd : Nat.toDigits 10 n with
    | nil => exact absurd hd Nat.toDigits_ne_nil
    | cons c rest =>
      have hdigit : c.isDigit = true := isDigit_toDigits (n := n) (by rw [hd]; exact List.mem_cons_self)
      exact ⟨c, rest, by rw [← hd]; exact toList_decimal_ofNat n, kindOfChar_of_isDigit hdigit⟩
  | negSucc n => exact ⟨'-', _, toList_decimal_negSucc n, by decide⟩

theorem head_text (a : Doc) : ∃ c rest, text a = c :: rest ∧ kindOfChar c = kind a := by
  cases a with
  | null => exact ⟨'n', _, by rw [text]; rfl, by decide⟩
  | bool b =>
    cases b with
    | true => exact ⟨'t', _, by rw [text]; rfl, by decide⟩
    | false => exact ⟨'f', _, by rw [text]; rfl, by decide⟩
  | int n =>
    rw [text]
    exact head_decimal n
  | string s => exact ⟨'"', _, by rw [text, Json.quote, String.toList_ofList]; rfl, rfl⟩
  | array elements =>
    cases elements with
    | nil => exact ⟨'[', _, by rw [text], by decide⟩
    | cons a rest => exact ⟨'[', _, by rw [text], rfl⟩
  | object entries =>
    cases entries with
    | nil => exact ⟨'\x7b', _, by rw [text], by decide⟩
    | cons e rest =>
      obtain ⟨key, a⟩ := e
      exact ⟨'\x7b', _, by rw [text], rfl⟩

/-- The first character tells the kind of a document. -/
theorem kind_eq {a b : Doc} {x y : List Char} (h : text a ++ x = text b ++ y) :
    kind a = kind b := by
  obtain ⟨c, rest, ha, hc⟩ := head_text a
  obtain ⟨d, rest', hb, hd⟩ := head_text b
  rw [ha, hb, List.cons_append, List.cons_append, List.cons.injEq] at h
  rw [← hc, ← hd, h.1]

/-- No document begins like the end of an array. -/
theorem text_append_ne_close (a : Doc) (x y : List Char) : text a ++ x ≠ ']' :: y := by
  intro h
  obtain ⟨c, rest, ha, hc⟩ := head_text a
  rw [ha, List.cons_append, List.cons.injEq] at h
  rw [h.1] at hc
  cases a <;> cases hc

theorem quote_append_ne_close (key : String) (x y : List Char) :
    (Json.quote key).toList ++ x ≠ '\x7d' :: y := by
  rw [Json.quote, String.toList_ofList]
  simp

/-! ### The text determines the document -/

/-- What follows an element ends a numeral. -/
theorem ends_elementsTail (elements : List Doc) (x : List Char) :
    Ends (elementsTail elements ++ x) := by
  cases elements with
  | nil =>
    rw [elementsTail]
    rintro c ⟨⟩
    rfl
  | cons a rest =>
    rw [elementsTail]
    rintro c ⟨⟩
    rfl

/-- And so does what follows an entry. -/
theorem ends_entriesTail (entries : List (String × Doc)) (x : List Char) :
    Ends (entriesTail entries ++ x) := by
  cases entries with
  | nil =>
    rw [entriesTail]
    rintro c ⟨⟩
    rfl
  | cons e rest =>
    rw [entriesTail]
    rintro c ⟨⟩
    rfl

/-- Where the text of the document ends can be told from the text, and so can the document. -/
def Delimited (a : Doc) : Prop :=
  ∀ b x y, Ends x → Ends y → text a ++ x = text b ++ y → a = b ∧ x = y

/-- Each kind of document can be read back, whatever follows; first the ones without parts. -/
theorem delimited_null : Delimited .null := by
  intro b x y _ _ h
  have hkind := kind_eq h
  cases b with
  | null => exact ⟨rfl, List.append_cancel_left h⟩
  | _ => cases hkind

theorem delimited_bool (b : Bool) : Delimited (.bool b) := by
  intro b' x y _ _ h
  have hkind := kind_eq h
  cases b' with
  | bool b' =>
    cases b <;> cases b'
    · exact ⟨rfl, List.append_cancel_left h⟩
    · simp [text] at h
    · simp [text] at h
    · exact ⟨rfl, List.append_cancel_left h⟩
  | _ => cases hkind

theorem delimited_int (n : Int) : Delimited (.int n) := by
  intro b x y hx hy h
  have hkind := kind_eq h
  cases b with
  | int m =>
    simp only [text] at h
    obtain ⟨rfl, rfl⟩ := decimal_append_inj hx hy h
    exact ⟨rfl, rfl⟩
  | _ => cases hkind

theorem delimited_string (s : String) : Delimited (.string s) := by
  intro b x y _ _ h
  have hkind := kind_eq h
  cases b with
  | string t =>
    simp only [text] at h
    obtain ⟨rfl, rfl⟩ := Json.quote_append_inj h
    exact ⟨rfl, rfl⟩
  | _ => cases hkind

/-- By induction over the elements. -/
theorem elementsTail_append_inj {as : List Doc} (hall : ∀ a ∈ as, Delimited a) {bs : List Doc}
    {x y : List Char} (h : elementsTail as ++ x = elementsTail bs ++ y) : as = bs ∧ x = y := by
  induction as generalizing bs with
  | nil =>
    cases bs with
    | nil => exact ⟨rfl, List.append_cancel_left h⟩
    | cons b bs => simp [elementsTail] at h
  | cons a as ih =>
    cases bs with
    | nil => simp [elementsTail] at h
    | cons b bs =>
      simp only [elementsTail, List.cons_append, List.cons.injEq, true_and, List.append_assoc] at h
      obtain ⟨rfl, htail⟩ := hall a List.mem_cons_self b _ _ (ends_elementsTail as x)
        (ends_elementsTail bs y) h
      obtain ⟨rfl, rfl⟩ := ih (fun a ha => hall a (List.mem_cons_of_mem _ ha)) htail
      exact ⟨rfl, rfl⟩

/-- An array, when its elements can be read back. -/
theorem delimited_array {as : List Doc} (hall : ∀ a ∈ as, Delimited a) : Delimited (.array as) := by
  intro b x y _ _ h
  have hkind := kind_eq h
  cases b with
  | array bs =>
    cases as with
    | nil =>
      cases bs with
      | nil => exact ⟨rfl, List.append_cancel_left h⟩
      | cons b bs =>
        simp only [text, List.cons_append, List.nil_append, List.cons.injEq, true_and,
          List.append_assoc] at h
        exact absurd h.symm (text_append_ne_close b _ _)
    | cons a as =>
      cases bs with
      | nil =>
        simp only [text, List.cons_append, List.nil_append, List.cons.injEq, true_and,
          List.append_assoc] at h
        exact absurd h (text_append_ne_close a _ _)
      | cons b bs =>
        simp only [text, List.cons_append, List.cons.injEq, true_and, List.append_assoc] at h
        obtain ⟨rfl, htail⟩ := hall a List.mem_cons_self b _ _ (ends_elementsTail as x)
          (ends_elementsTail bs y) h
        obtain ⟨rfl, rfl⟩ :=
          elementsTail_append_inj (fun a ha => hall a (List.mem_cons_of_mem _ ha)) htail
        exact ⟨rfl, rfl⟩
  | _ => cases hkind

/-- By induction over the entries. -/
theorem entriesTail_append_inj {as : List (String × Doc)} (hall : ∀ e ∈ as, Delimited e.2)
    {bs : List (String × Doc)} {x y : List Char}
    (h : entriesTail as ++ x = entriesTail bs ++ y) : as = bs ∧ x = y := by
  induction as generalizing bs with
  | nil =>
    cases bs with
    | nil => exact ⟨rfl, List.append_cancel_left h⟩
    | cons e bs => simp [entriesTail] at h
  | cons e as ih =>
    obtain ⟨key, a⟩ := e
    cases bs with
    | nil => simp [entriesTail] at h
    | cons e bs =>
      obtain ⟨key', b⟩ := e
      simp only [entriesTail, List.cons_append, List.cons.injEq, true_and, List.append_assoc] at h
      obtain ⟨rfl, hvalue⟩ := Json.quote_append_inj h
      simp only [List.cons.injEq, true_and] at hvalue
      obtain ⟨rfl, htail⟩ := hall (key, a) List.mem_cons_self b _ _ (ends_entriesTail as x)
        (ends_entriesTail bs y) hvalue
      obtain ⟨rfl, rfl⟩ := ih (fun e he => hall e (List.mem_cons_of_mem _ he)) htail
      exact ⟨rfl, rfl⟩

/-- An object, when its values can be read back. -/
theorem delimited_object {as : List (String × Doc)} (hall : ∀ e ∈ as, Delimited e.2) :
    Delimited (.object as) := by
  intro b x y _ _ h
  have hkind := kind_eq h
  cases b with
  | object bs =>
    cases as with
    | nil =>
      cases bs with
      | nil => exact ⟨rfl, List.append_cancel_left h⟩
      | cons e bs =>
        obtain ⟨key, b⟩ := e
        simp only [text, List.cons_append, List.nil_append, List.cons.injEq, true_and,
          List.append_assoc] at h
        exact absurd h.symm (quote_append_ne_close key _ _)
    | cons e as =>
      obtain ⟨key, a⟩ := e
      cases bs with
      | nil =>
        simp only [text, List.cons_append, List.nil_append, List.cons.injEq, true_and,
          List.append_assoc] at h
        exact absurd h (quote_append_ne_close key _ _)
      | cons e bs =>
        obtain ⟨key', b⟩ := e
        simp only [text, List.cons_append, List.cons.injEq, true_and, List.append_assoc] at h
        obtain ⟨rfl, hvalue⟩ := Json.quote_append_inj h
        simp only [List.cons.injEq, true_and] at hvalue
        obtain ⟨rfl, htail⟩ := hall (key, a) List.mem_cons_self b _ _ (ends_entriesTail as x)
          (ends_entriesTail bs y) hvalue
        obtain ⟨rfl, rfl⟩ :=
          entriesTail_append_inj (fun e he => hall e (List.mem_cons_of_mem _ he)) htail
        exact ⟨rfl, rfl⟩
  | _ => cases hkind

/-- Every document is delimited: by recursion on the documents inside it. -/
theorem delimited : (a : Doc) → Delimited a
  | .null => delimited_null
  | .bool b => delimited_bool b
  | .int n => delimited_int n
  | .string s => delimited_string s
  | .array as => delimited_array fun a _ha => delimited a
  | .object as => delimited_object fun e _he => delimited e.2
termination_by a => sizeOf a
decreasing_by
  · have hlt := List.sizeOf_lt_of_mem _ha
    simp only [array.sizeOf_spec]
    omega
  · have hlt := List.sizeOf_lt_of_mem _he
    have hsnd : sizeOf e.2 < sizeOf e := by
      obtain ⟨key, a⟩ := e
      simp only [Prod.mk.sizeOf_spec]
      omega
    simp only [object.sizeOf_spec]
    omega

/-- A document is determined by its text. -/
theorem text_injective : Function.Injective text := by
  intro a b h
  have hend : Ends [] := by
    rintro c ⟨⟩
  exact (delimited a b [] [] hend hend (by rw [h])).1

end Doc

end Lib
