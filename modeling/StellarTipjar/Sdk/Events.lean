import StellarTipjar.Indexer.Decoding
import StellarTipjar.Sdk.TipJarContract

/-!
# The TypeScript SDK — events

`sdk/typescript/src/events.ts` and `getTipEvents` of `TipJarContract.ts`. The parsers take the first
two elements of the data for sender and amount, and for amount and destination. The contract puts the
token in front of both, so a number is asked of the text of an address and every event throws
(`sdk_never_decodes`).

`scValToNative` is that of the Stellar library: an address becomes its text, an `i128` a `bigint`.
-/

namespace Sdk

open Lib Soroban Indexer

/-! ## Numbers from text -/

/-- White space and line terminators of JavaScript. -/
def jsSpace (c : Char) : Bool :=
  c.toNat ∈ [9, 10, 11, 12, 13, 32, 0xA0, 0x1680, 0x2028, 0x2029, 0x202F, 0x205F, 0x3000, 0xFEFF] ||
    (0x2000 ≤ c.toNat && c.toNat ≤ 0x200A)

/-- `String.prototype.trim`. -/
def jsTrim (cs : List Char) : List Char :=
  ((cs.dropWhile jsSpace).reverse.dropWhile jsSpace).reverse

/-- The value of a digit, in bases up to 16. -/
def digitValue (base : Nat) (c : Char) : Option Nat :=
  let value :=
    if c.isDigit then some (c.toNat - '0'.toNat)
    else if 'a' ≤ c ∧ c ≤ 'f' then some (c.toNat - 'a'.toNat + 10)
    else if 'A' ≤ c ∧ c ≤ 'F' then some (c.toNat - 'A'.toNat + 10)
    else none
  value.filter (· < base)

/-- A numeral of at least one digit. -/
def readDigits (base : Nat) (cs : List Char) : Option Nat :=
  if cs.isEmpty then none
  else cs.foldlM (fun n c => (digitValue base c).map (base * n + ·)) 0

/-- `StringToBigInt`. -/
def bigIntOfText (s : String) : Option Int :=
  match jsTrim s.toList with
  | [] => some 0
  | '0' :: 'b' :: cs | '0' :: 'B' :: cs => (readDigits 2 cs).map Int.ofNat
  | '0' :: 'o' :: cs | '0' :: 'O' :: cs => (readDigits 8 cs).map Int.ofNat
  | '0' :: 'x' :: cs | '0' :: 'X' :: cs => (readDigits 16 cs).map Int.ofNat
  | '+' :: cs => (readDigits 10 cs).map Int.ofNat
  | '-' :: cs => (readDigits 10 cs).map fun n => -Int.ofNat n
  | cs => (readDigits 10 cs).map Int.ofNat

/-! ## The parsers -/

inductive JsError where
  | syntaxError (message : String)
  | typeError (message : String)
deriving DecidableEq, Repr

def JsError.message : JsError → String
  | syntaxError message | typeError message => message

/-- The JavaScript values that occur. -/
inductive Native where
  | string (s : String)
  | bigint (n : Int)
  | number (n : UInt32)
deriving DecidableEq, Repr

/-- The function `BigInt`. -/
def bigInt : Native → Except JsError Int
  | .bigint n => .ok n
  | .number n => .ok n.toNat
  | .string s =>
    match bigIntOfText s with
    | some n => .ok n
    | none => .error (.syntaxError ("Cannot convert " ++ s ++ " to a BigInt"))

/-- The field `sender` is cast to a string, whatever it is. -/
structure TipEvent where
  sender : Native
  amount : Int
deriving DecidableEq, Repr

structure WithdrawEvent where
  amount : Int
  to' : Native
deriving DecidableEq, Repr

section Parsers

-- the text form of an address, which the library gives
variable (strkey : Address → String)

/-- `scValToNative` of the Stellar SDK, at the values of the two events. -/
def scValToNative : ScVal → Native
  | .address a => .string (strkey a)
  | .i128 n => .bigint n.val
  | .u32 n => .number n

/-- An element of the data; `scValToNative` throws on what is not there. -/
def nativeAt (value : List ScVal) (i : Nat) : Except JsError Native :=
  match value[i]? with
  | some v => .ok (scValToNative strkey v)
  | none => .error (.typeError "Cannot read properties of undefined (reading 'switch')")

/-- The data is taken to be `[sender, amount]`. -/
def parseTipEvent (value : List ScVal) : Except JsError TipEvent := do
  let sender ← nativeAt strkey value 0
  let amountVal ← nativeAt strkey value 1
  let amount ← bigInt amountVal
  pure { sender, amount }

/-- The data is taken to be `[amount, to]`. -/
def parseWithdrawEvent (value : List ScVal) : Except JsError WithdrawEvent := do
  let amountVal ← nativeAt strkey value 0
  let amount ← bigInt amountVal
  let to' ← nativeAt strkey value 1
  pure { amount, to' }

def getEvents (answer : Except String (List (List ScVal))) (exchange : Exchange) :
    Rpc (List (List ScVal)) :=
  request answer exchange (fun events chain => some (events, chain)) id

/-- `answers n` is the page of events that the server returns the `n`-th time. -/
def getTipEvents (answers : Nat → Except String (List (List ScVal)))
    (exchanges : Nat → Exchange) : Rpc (List TipEvent) :=
  withRetry fun n => do
    let events ← getEvents (answers n) (exchanges n)
    match events.mapM (parseTipEvent strkey) with
    | .ok tips => pure tips
    -- only the message of an exception is looked at
    | .error e => Remote.fail (.rpc e.message)

end Parsers

/-! ## What should come back -/

/-- A tip that has been published. -/
structure Tip where
  creator : Address
  token : Address
  sender : Address
  amount : I128

structure Withdrawal where
  creator : Address
  token : Address
  amount : I128
  dest : Address

/-- The data of an event, in the order of the contract. -/
def eventData (e : TipJar.Event) : List ScVal :=
  (layout e).elim [] fun l => l.data.map Prod.snd

/-- What the contract publishes: `[token, sender, amount]`. -/
def Tip.data (t : Tip) : List ScVal := eventData (.tip t.creator t.token t.sender t.amount)

def Withdrawal.data (w : Withdrawal) : List ScVal :=
  eventData (.withdraw w.creator w.token w.amount w.dest)

/-- The parser gives back the sender and the amount. -/
def Tip.Decoded (strkey : Address → String) (t : Tip) : Prop :=
  parseTipEvent strkey t.data = .ok ⟨.string (strkey t.sender), t.amount.val⟩

/-- The parser gives back the amount and the recipient. -/
def Withdrawal.Decoded (strkey : Address → String) (w : Withdrawal) : Prop :=
  parseWithdrawEvent strkey w.data = .ok ⟨w.amount.val, .string (strkey w.dest)⟩

/-- With this page on the server, a call returns the senders and the amounts of its tips. -/
def Listed (strkey : Address → String) (page : List Tip) : Prop :=
  ∀ exchanges chain, ∃ chain',
    getTipEvents strkey (fun _ => .ok (page.map Tip.data)) exchanges chain =
      some (.ok (page.map fun t => ⟨.string (strkey t.sender), t.amount.val⟩), chain')

/-! ## The text of an address is no number -/

section Text

variable {c : Char}

/-- The code points of the capital letters. -/
theorem toNat_of_isUpper (h : c.isUpper = true) : 65 ≤ c.toNat ∧ c.toNat ≤ 90 := by
  have hval : 'A'.val ≤ c.val ∧ c.val ≤ 'Z'.val := of_decide_eq_true h
  exact ⟨UInt32.le_iff_toNat_le.mp hval.1, UInt32.le_iff_toNat_le.mp hval.2⟩

/-- A capital letter is not trimmed. -/
theorem jsSpace_of_isUpper (h : c.isUpper = true) : jsSpace c = false := by
  obtain ⟨hlo, hhi⟩ := toNat_of_isUpper h
  simp only [jsSpace, List.mem_cons, List.not_mem_nil, or_false, Bool.or_eq_false_iff,
    decide_eq_false_iff_not, Bool.and_eq_false_iff]
  omega

/-- And is no decimal digit. -/
theorem digitValue_of_isUpper (h : c.isUpper = true) : digitValue 10 c = none := by
  obtain ⟨hlo, hhi⟩ := toNat_of_isUpper h
  have hdigit : c.isDigit = false := by
    have hnot : ¬c.toNat ≤ 57 := by omega
    simpa [Char.isDigit, UInt32.le_iff_toNat_le] using fun _ => hnot
  unfold digitValue
  simp only [hdigit, Bool.false_eq_true, if_false]
  rw [Option.filter_eq_none_iff]
  intro value hvalue
  split at hvalue
  · obtain rfl := Option.some.inj hvalue
    simp
  · split at hvalue
    · obtain rfl := Option.some.inj hvalue
      simp
    · cases hvalue

/-- Trimming keeps a first character that is no space. -/
theorem jsTrim_cons (h : jsSpace c = false) (cs : List Char) :
    ∃ rest, jsTrim (c :: cs) = c :: rest := by
  have hend : ∃ init, (cs.reverse ++ [c]).dropWhile jsSpace = init ++ [c] := by
    rw [List.dropWhile_append]
    split
    · exact ⟨[], by simp [h]⟩
    · exact ⟨_, rfl⟩
  obtain ⟨init, hinit⟩ := hend
  refine ⟨init.reverse, ?_⟩
  rw [jsTrim, List.dropWhile_cons_of_neg (by simp [h]), List.reverse_cons, hinit,
    List.reverse_append, List.reverse_singleton, List.singleton_append]

/-- So a text that begins with one is no number. -/
theorem bigIntOfText_of_isUpper {s : String} {cs : List Char} (hs : s.toList = c :: cs)
    (h : c.isUpper = true) : bigIntOfText s = none := by
  obtain ⟨rest, hrest⟩ := jsTrim_cons (jsSpace_of_isUpper h) cs
  have hdigits : readDigits 10 (c :: rest) = none := by
    rw [readDigits, if_neg (by simp), List.foldlM_cons, digitValue_of_isUpper h]
    rfl
  have hlower : ∀ d : Char, d.isUpper = false → c ≠ d := by
    rintro d hd rfl
    rw [h] at hd
    cases hd
  unfold bigIntOfText
  rw [hs, hrest]
  split
  case h_1 heq => cases heq
  case h_10 => rw [hdigits, Option.map_none]
  -- the other patterns begin with a sign or a zero
  all_goals
    next heq => exact absurd (List.cons.inj heq).1 (hlower _ (by decide))

end Text

/-! ## Every event throws -/

/-- The text of an address begins with a capital letter, `G` for an account, `C` for a contract. -/
def IsStrkey (strkey : Address → String) : Prop :=
  ∀ a, ∃ c cs, (strkey a).toList = c :: cs ∧ c.isUpper = true

section Throws

open Remote

variable {strkey : Address → String}

/-- An address begins with one. -/
theorem bigInt_address (h : IsStrkey strkey) (a : Address) :
    bigInt (scValToNative strkey (.address a)) =
      .error (.syntaxError ("Cannot convert " ++ strkey a ++ " to a BigInt")) := by
  obtain ⟨c, cs, hs, hc⟩ := h a
  show bigInt (.string (strkey a)) = _
  rw [bigInt, bigIntOfText_of_isUpper hs hc]

/-- The amount is read from the sender. -/
theorem parseTipEvent_throws (h : IsStrkey strkey) (t : Tip) :
    parseTipEvent strkey t.data =
      .error (.syntaxError ("Cannot convert " ++ strkey t.sender ++ " to a BigInt")) := by
  show (bigInt (scValToNative strkey (.address t.sender)) >>= _) = _
  rw [bigInt_address h]
  rfl

/-- The amount is read from the token. -/
theorem parseWithdrawEvent_throws (h : IsStrkey strkey) (w : Withdrawal) :
    parseWithdrawEvent strkey w.data =
      .error (.syntaxError ("Cannot convert " ++ strkey w.token ++ " to a BigInt")) := by
  show (bigInt (scValToNative strkey (.address w.token)) >>= _) = _
  rw [bigInt_address h]
  rfl

/-- One event that throws loses the whole page. -/
theorem mapM_parseTipEvent_throws (h : IsStrkey strkey) {page : List Tip} (hne : page ≠ []) :
    ∃ e, (page.map Tip.data).mapM (parseTipEvent strkey) = .error e := by
  cases page with
  | nil => exact absurd rfl hne
  | cons t rest =>
    rw [List.map_cons, List.mapM_cons, parseTipEvent_throws h]
    exact ⟨_, rfl⟩

/-- What is listed is what the server has sent. -/
theorem getEvents_answer (answer : Except String (List (List ScVal))) (exchange : Exchange) :
    Holds (fun _ => True) (getEvents answer exchange) fun result _ =>
      ∀ events, result = .ok events → answer = .ok events := by
  refine holds_request (fun _ _ h => h) (fun _ _ _ h => h) ?_ ?_
  · intro a value chain chain' hanswer _ hserved events hevents
    cases hserved
    cases hevents
    exact hanswer
  · intro message chain _ _
    exact ⟨fun events hevents => (by cases hevents), fun events hevents => (by cases hevents)⟩

/-- A call gets no further than an attempt that is answered with a tip. -/
theorem getTipEvents_throws (h : IsStrkey strkey)
    {answers : Nat → Except String (List (List ScVal))}
    (hpages : ∀ n events, answers n = .ok events →
      ∃ page : List Tip, page ≠ [] ∧ events = page.map Tip.data) (exchanges : Nat → Exchange) :
    Holds (fun _ => True) (getTipEvents strkey answers exchanges)
      (Ends (fun _ => True) fun _ _ => False) := by
  refine Holds.retry fun n _ _ => ?_
  refine (getEvents_answer (answers n) (exchanges n)).bind (fun _ _ _ => trivial) fun events => ?_
  intro chain result chain' hanswer hrun
  obtain ⟨page, hne, rfl⟩ := hpages n events (hanswer events rfl)
  obtain ⟨e, he⟩ := mapM_parseTipEvent_throws h hne
  rw [he] at hrun
  cases hrun
  trivial

/-- An empty page is listed. -/
theorem listed_nil (strkey : Address → String) : Listed strkey [] := by
  intro exchanges chain
  have hpage : getEvents (.ok []) (exchanges 0) chain = some (.ok [], _) := request_of_ok rfl
  exact ⟨_, retry_of_ok (bind_of_ok hpage)⟩

end Throws

/-- No tip and no withdrawal is decoded, and a call lists the tips only when there are none. -/
theorem sdk_never_decodes (strkey : Address → String) (h : IsStrkey strkey) :
    (∀ t : Tip, ¬t.Decoded strkey) ∧ (∀ w : Withdrawal, ¬w.Decoded strkey) ∧
      ∀ page, Listed strkey page ↔ page = [] := by
  refine ⟨fun t ht => ?_, fun w hw => ?_, fun page => ?_⟩
  · rw [Tip.Decoded, parseTipEvent_throws h] at ht
    cases ht
  · rw [Withdrawal.Decoded, parseWithdrawEvent_throws h] at hw
    cases hw
  · constructor
    · intro hlisted
      by_contra hne
      obtain ⟨chain', hrun⟩ := hlisted (fun _ => ⟨[], [], true⟩) (Chain.start 0)
      refine getTipEvents_throws h (fun n events hevents => ?_) _ _ _ _ trivial hrun
      exact ⟨page, hne, (Except.ok.inj hevents).symm⟩
    · rintro rfl
      exact listed_nil strkey

section Sample

/-- A text for each address, of the form of an account. -/
def accountText (a : Address) : String := "G" ++ decimal a.idx

theorem accountText_isStrkey : IsStrkey accountText := by
  intro a
  refine ⟨'G', (decimal a.idx).toList, ?_, rfl⟩
  rw [accountText, String.toList_append]
  rfl

def publishedTip : Tip := ⟨⟨1⟩, ⟨2⟩, ⟨3⟩, 500⟩

-- the layout that the parser documents
example : parseTipEvent accountText [.address ⟨3⟩, .i128 500] =
    .ok ⟨.string (accountText ⟨3⟩), 500⟩ := rfl

theorem sdk_never_decodes_sample :
    ¬publishedTip.Decoded accountText ∧ ¬(Withdrawal.mk ⟨1⟩ ⟨2⟩ 500 ⟨1⟩).Decoded accountText ∧
      ¬Listed accountText [publishedTip] := by
  obtain ⟨htips, hwithdrawals, hpages⟩ := sdk_never_decodes accountText accountText_isStrkey
  refine ⟨htips _, hwithdrawals _, fun h => ?_⟩
  cases (hpages [publishedTip]).mp h

/-- For a tip of 500, the parser asks a number of the sender. -/
theorem publishedTip_throws :
    parseTipEvent accountText publishedTip.data =
      .error (.syntaxError ("Cannot convert " ++ accountText ⟨3⟩ ++ " to a BigInt")) ∧
    ¬publishedTip.Decoded accountText := by
  have hthrows := parseTipEvent_throws accountText_isStrkey publishedTip
  refine ⟨hthrows, fun h => ?_⟩
  rw [Tip.Decoded, hthrows] at h
  cases h

end Sample

end Sdk
