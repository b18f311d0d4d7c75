import StellarTipjar.Derivatives.Settlement

/-!
# Derivatives — the placement order decides what is matched

The inner loop of `match_orders` starts behind the buy, so a sell that was placed before a buy is
not looked at for it. `match_complete_iff` says when a match leaves no buy and sell behind that
cross, and when, moreover, the matched quantities do not depend on which of a buy and a sell was
placed first. The latter is so only when there is nothing to match: whatever crosses, some buy and
sell can be exchanged such that one match more, or one less, is made.
-/

namespace Derivatives

open Lib Soroban Contract

variable {X : Type}

/-! ## Exchanging two orders of a book -/

/-- The quantities `match_orders` matches in a book. -/
def matchedQuantities (book : List Order) : List I128 :=
  (picks book).map fun p => matchQty p.1 p.2

/-- A buy and a sell of the book have changed places. -/
def Exchanged (book book' : List Order) : Prop :=
  ∃ l₁ x l₂ y l₃, book = l₁ ++ x :: (l₂ ++ y :: l₃) ∧ book' = l₁ ++ y :: (l₂ ++ x :: l₃) ∧
    x.isBuy ≠ y.isBuy

/-- Some buy of the book crosses some sell of it. -/
def HasCrossing (book : List Order) : Prop :=
  ∃ buy ∈ book, ∃ sell ∈ book, buy.isBuy = true ∧ Crosses buy sell

/-- The matched quantities stay the same when a buy and a sell change places. -/
def OrderFree (book : List Order) : Prop :=
  ∀ book', Exchanged book book' → (matchedQuantities book').Perm (matchedQuantities book)

section Lists

variable {book book' l l₁ l₂ l₃ rest rest' : List Order} {a buy sell x y : Order}

/-- The same orders, two of them exchanged. -/
theorem Exchanged.mem_iff (h : Exchanged book book') : x ∈ book' ↔ x ∈ book := by
  obtain ⟨l₁, a, l₂, b, l₃, rfl, rfl, -⟩ := h
  simp only [List.mem_append, List.mem_cons]
  grind

/-- The inner loop finds an order when one crosses. -/
theorem pick_isSome : (pick a rest).isSome = true ↔ ∃ x ∈ rest, Crosses a x := by
  unfold pick
  rw [Option.isSome_map, List.find?_isSome]
  simp

/-- And none when none does. -/
theorem pick_eq_none : pick a rest = none ↔ ∀ x ∈ rest, ¬Crosses a x := by
  rw [← Option.not_isSome_iff_eq_none, pick_isSome]
  simp

/-- How many matches a book makes depends on what follows each buy, not on the order of that. -/
theorem length_picks_append (hsame : ∀ x, x ∈ rest ↔ x ∈ rest') :
    (picks (l ++ rest)).length + (picks rest').length
      = (picks (l ++ rest')).length + (picks rest).length := by
  induction l with
  | nil => simp [Nat.add_comm]
  | cons a l ih =>
    have hpick : (if a.isBuy then pick a (l ++ rest) else none).toList.length
        = (if a.isBuy then pick a (l ++ rest') else none).toList.length := by
      have hsome : (pick a (l ++ rest)).isSome = (pick a (l ++ rest')).isSome := by
        rw [Bool.eq_iff_iff, pick_isSome, pick_isSome]
        simp only [List.mem_append, hsame]
      split
      · cases h : pick a (l ++ rest) <;> cases h' : pick a (l ++ rest') <;> rw [h, h'] at hsome <;>
          first | rfl | cases hsome
      · rfl
    simp only [List.cons_append, picks, List.length_append]
    omega

/-- No pair is found when the head finds none and the rest has none. -/
theorem picks_cons_eq_nil : picks (a :: rest) = [] ↔
    (a.isBuy = true → ∀ x ∈ rest, ¬Crosses a x) ∧ picks rest = [] := by
  rw [picks, List.append_eq_nil_iff, Option.toList_eq_nil_iff]
  refine and_congr ?_ Iff.rfl
  split
  · next hbuy => simp [hbuy, pick_eq_none]
  · next hbuy => simp [hbuy]

/-- So a suffix of such a book has none. -/
theorem picks_suffix_eq_nil (h : picks (l ++ rest) = []) : picks rest = [] := by
  induction l with
  | nil => exact h
  | cons a l ih =>
    rw [List.cons_append, picks_cons_eq_nil] at h
    exact ih h.2

/-- A book that matches nothing does not start to when its end is replaced by one that offers
nothing new. -/
theorem picks_replace_eq_nil (h : picks (l ++ rest) = []) (hrest : picks rest' = [])
    (hoffers : ∀ a, ∀ y ∈ rest', Crosses a y → ∃ z ∈ rest, Crosses a z) :
    picks (l ++ rest') = [] := by
  induction l with
  | nil => exact hrest
  | cons a l ih =>
    rw [List.cons_append, picks_cons_eq_nil] at h ⊢
    refine ⟨fun hbuy x hx hcrosses => ?_, ih h.2⟩
    rcases List.mem_append.mp hx with hx | hx
    · exact h.1 hbuy x (List.mem_append_left _ hx) hcrosses
    · obtain ⟨z, hz, hcrosses'⟩ := hoffers a x hx hcrosses
      exact h.1 hbuy z (List.mem_append_right _ hz) hcrosses'

/-- Without a crossing there is nothing to find. -/
theorem picks_eq_nil_of_not_hasCrossing (h : ¬HasCrossing book) : picks book = [] := by
  refine List.eq_nil_iff_forall_not_mem.mpr fun p hp => ?_
  have hpicks := picks_of_mem hp
  exact h ⟨p.1, hpicks.mem_left, p.2, hpicks.mem_right, hpicks.isBuy, hpicks.crosses⟩

/-- The last buy that finds a sell, and the last sell it could have found. -/
theorem exists_last_match (h : picks book ≠ []) :
    ∃ l₁ buy l₂ sell l₃, book = l₁ ++ buy :: (l₂ ++ sell :: l₃) ∧ buy.isBuy = true ∧
      Crosses buy sell ∧ (∀ x ∈ l₃, ¬Crosses buy x) ∧ picks (l₂ ++ sell :: l₃) = [] := by
  induction book with
  | nil => exact absurd rfl h
  | cons a rest ih =>
    by_cases hrest : picks rest = []
    · -- then it is the first order that finds one
      have hpick : (if a.isBuy then pick a rest else none).isSome = true := by
        rw [picks, hrest, List.append_nil, ne_eq, Option.toList_eq_nil_iff] at h
        exact Option.isSome_iff_ne_none.mpr h
      split at hpick
      · next hbuy =>
        rw [pick_isSome] at hpick
        rcases last_occurrence (fun x => Crosses a x) rest with hnone | ⟨l₂, sell, l₃, rfl, hsell, hlast⟩
        · obtain ⟨x, hx, hcrosses⟩ := hpick
          exact absurd hcrosses (hnone x hx)
        · exact ⟨[], a, l₂, sell, l₃, rfl, hbuy, hsell, hlast, hrest⟩
      · cases hpick
    · obtain ⟨l₁, buy, l₂, sell, l₃, rfl, htail⟩ := ih hrest
      exact ⟨a :: l₁, buy, l₂, sell, l₃, rfl, htail⟩

/-- Placing that sell before that buy makes one match less. -/
theorem length_picks_exchanged (hbuy : buy.isBuy = true) (hcrosses : Crosses buy sell)
    (hlast : ∀ x ∈ l₃, ¬Crosses buy x) (hquiet : picks (l₂ ++ sell :: l₃) = []) :
    (picks (l₁ ++ sell :: (l₂ ++ buy :: l₃))).length + 1
      = (picks (l₁ ++ buy :: (l₂ ++ sell :: l₃))).length := by
  have hbefore : (picks (buy :: (l₂ ++ sell :: l₃))).length = 1 := by
    have hpick : (pick buy (l₂ ++ sell :: l₃)).isSome = true :=
      pick_isSome.mpr ⟨sell, by simp, hcrosses⟩
    obtain ⟨p, hp⟩ := Option.isSome_iff_exists.mp hpick
    rw [picks, if_pos hbuy, hquiet, hp]
    rfl
  have hafter : picks (sell :: (l₂ ++ buy :: l₃)) = [] := by
    have htail : picks (l₂ ++ buy :: l₃) = [] := by
      refine picks_replace_eq_nil hquiet ?_ ?_
      · refine picks_cons_eq_nil.mpr ⟨fun _ => hlast, ?_⟩
        exact (picks_cons_eq_nil.mp (picks_suffix_eq_nil hquiet)).2
      · intro a y hy hcross
        rcases List.mem_cons.mp hy with rfl | hy
        · exact absurd rfl (hcross.ne hbuy)
        · exact ⟨y, List.mem_cons_of_mem _ hy, hcross⟩
    refine picks_cons_eq_nil.mpr ⟨fun hsell => ?_, htail⟩
    exact absurd rfl (hcrosses.ne hsell)
  have hsame : ∀ x, x ∈ buy :: (l₂ ++ sell :: l₃) ↔ x ∈ sell :: (l₂ ++ buy :: l₃) := by
    intro x
    simp only [List.mem_append, List.mem_cons]
    grind
  have hsum := length_picks_append (l := l₁) hsame
  rw [hafter, hbefore, List.length_nil] at hsum
  omega

/-- The matched quantities do not depend on the places of a buy and a sell just when nothing
crosses. -/
theorem orderFree_iff : OrderFree book ↔ ¬HasCrossing book := by
  constructor
  · rintro hfree ⟨buy, hbuymem, sell, hsellmem, hbuy, hcrosses⟩
    have hlength : ∀ book', Exchanged book book' → (picks book').length = (picks book).length := by
      intro book' hexchanged
      have hperm := (hfree book' hexchanged).length_eq
      simpa [matchedQuantities] using hperm
    by_cases hnone : picks book = []
    · -- every sell that crosses stands before the buy: exchanging the two makes a match
      have hne : sell ≠ buy := (hcrosses.ne hbuy).symm
      obtain ⟨l₁, rest, rfl⟩ := List.append_of_mem hbuymem
      have hbehind := (picks_cons_eq_nil.mp (picks_suffix_eq_nil hnone)).1 hbuy
      have hin : sell ∈ l₁ := by
        rcases List.mem_append.mp hsellmem with hin | hin
        · exact hin
        · rcases List.mem_cons.mp hin with rfl | hin
          · exact absurd rfl hne
          · exact absurd hcrosses (hbehind sell hin)
      obtain ⟨l₀, l₂, rfl⟩ := List.append_of_mem hin
      have hexchanged : Exchanged (l₀ ++ sell :: l₂ ++ buy :: rest)
          (l₀ ++ buy :: (l₂ ++ sell :: rest)) :=
        ⟨l₀, sell, l₂, buy, rest, by simp, rfl, by rw [hcrosses.1, hbuy]; simp⟩
      have hempty := hlength _ hexchanged
      rw [hnone, List.length_nil, List.length_eq_zero_iff] at hempty
      exact (picks_cons_eq_nil.mp (picks_suffix_eq_nil hempty)).1 hbuy sell (by simp) hcrosses
    · obtain ⟨l₁, b, l₂, s, l₃, rfl, hb, hcross, hlast, hquiet⟩ := exists_last_match hnone
      have hexchanged : Exchanged (l₁ ++ b :: (l₂ ++ s :: l₃)) (l₁ ++ s :: (l₂ ++ b :: l₃)) :=
        ⟨l₁, b, l₂, s, l₃, rfl, rfl, by rw [hcross.1, hb]; simp⟩
      have hsame := hlength _ hexchanged
      have hless : (picks (l₁ ++ s :: (l₂ ++ b :: l₃))).length + 1
          = (picks (l₁ ++ b :: (l₂ ++ s :: l₃))).length :=
        length_picks_exchanged hb hcross hlast hquiet
      omega
  · intro hnone book' hexchanged
    have hnone' : ¬HasCrossing book' := by
      rintro ⟨buy, hbuymem, sell, hsellmem, hcrosses⟩
      exact hnone ⟨buy, hexchanged.mem_iff.mp hbuymem, sell, hexchanged.mem_iff.mp hsellmem, hcrosses⟩
    unfold matchedQuantities
    rw [picks_eq_nil_of_not_hasCrossing hnone, picks_eq_nil_of_not_hasCrossing hnone']

end Lists

/-! ## What a match leaves open -/

/-- The order is stored and unsettled. -/
def IsOpen (order : Order) (w : World X) : Prop :=
  ∃ id, orderOf w id = some order ∧ order.settled = false

/-- No unsettled buy crosses an unsettled sell. -/
def NothingLeft (w : World X) : Prop :=
  ∀ buy sell, IsOpen buy w → IsOpen sell w → buy.isBuy = true → ¬Crosses buy sell

/-- Every stored order is on the list of ids. -/
def Indexed (w : World X) : Prop := ∀ id order, orderOf w id = some order → id ∈ idsOf w

/-- The buy crosses a sell that was placed after it. -/
def FindsLater (book : List Order) (buy : Order) : Prop :=
  ∃ l₁ l₂, book = l₁ ++ buy :: l₂ ∧ ∃ x ∈ l₂, Crosses buy x

section Left

variable {chain : Chain X} {w w' : World X} {order buy sell : Order} {p : Order × Order}
  {ps : List (Order × Order)} {id : UInt64} {auth : List Address} {o : Occ (World X) (Action X)}

/-- A matching leaves the orders it does not match. -/
theorem orderOf_foldl_enter (h : ∀ p ∈ ps, id ≠ p.1.id ∧ id ≠ p.2.id) :
    orderOf (ps.foldl enter w) id = orderOf w id := by
  induction ps generalizing w with
  | nil => rfl
  | cons p ps ih =>
    obtain ⟨h₁, h₂⟩ := h p (by simp)
    rw [List.foldl_cons, ih fun q hq => h q (by simp [hq]), orderOf_enter, if_neg h₂, if_neg h₁]

/-- Matches close orders, they do not open any. -/
theorem IsClosed.foldl_enter (h : IsClosed id w) : IsClosed id (ps.foldl Derivatives.enter w) := by
  induction ps generalizing w with
  | nil => exact h
  | cons p ps ih => exact ih (h.enter p)

/-- And closes those it does. -/
theorem isClosed_foldl_enter (hp : p ∈ ps) (hid : id = p.1.id ∨ id = p.2.id) :
    IsClosed id (ps.foldl enter w) := by
  induction ps generalizing w with
  | nil => cases hp
  | cons q ps ih =>
    rw [List.foldl_cons]
    rcases List.mem_cons.mp hp with rfl | hp
    · have hclosed : IsClosed id (enter w p) := by
        unfold IsClosed
        rw [orderOf_enter]
        split
        · exact ⟨_, rfl, rfl⟩
        · next hne =>
          rw [if_pos (hid.resolve_right hne)]
          exact ⟨_, rfl, rfl⟩
      exact hclosed.foldl_enter
    · exact ih hp

/-- After a match exactly those orders are open that were, and are in none of its pairs. -/
theorem isOpen_recorded (h : Listed w) (hrecorded : Recorded (picks (openOrders w)) w w') :
    IsOpen order w' ↔
      IsOpen order w ∧ ∀ p ∈ picks (openOrders w), order ≠ p.1 ∧ order ≠ p.2 := by
  have horder : ∀ id, orderOf w' id = orderOf ((picks (openOrders w)).foldl enter w) id := by
    intro id
    unfold orderOf
    rw [hrecorded.eq_foldl.1]
  have hstored : ∀ p ∈ picks (openOrders w),
      orderOf w p.1.id = some p.1 ∧ orderOf w p.2.id = some p.2 := by
    intro p hp
    have hpicks := picks_of_mem hp
    exact ⟨(h.open_stored hpicks.mem_left).1, (h.open_stored hpicks.mem_right).1⟩
  constructor
  · rintro ⟨id, hid, hopen⟩
    have hnone : ∀ p ∈ picks (openOrders w), id ≠ p.1.id ∧ id ≠ p.2.id := by
      intro p hp
      have hcontra : ¬(id = p.1.id ∨ id = p.2.id) := by
        intro hparty
        obtain ⟨closed, hclosed, hsettled⟩ := isClosed_foldl_enter (w := w) hp hparty
        rw [← horder, hid] at hclosed
        cases hclosed
        rw [hopen] at hsettled
        cases hsettled
      exact not_or.mp hcontra
    rw [horder, orderOf_foldl_enter hnone] at hid
    refine ⟨⟨id, hid, hopen⟩, fun p hp => ⟨?_, ?_⟩⟩
    · rintro rfl
      exact (hnone p hp).1 (h.stored id _ hid).1.symm
    · rintro rfl
      exact (hnone p hp).2 (h.stored id _ hid).1.symm
  · rintro ⟨⟨id, hid, hopen⟩, hnone⟩
    refine ⟨id, ?_, hopen⟩
    rw [horder, orderOf_foldl_enter, hid]
    intro p hp
    obtain ⟨h₁, h₂⟩ := hstored p hp
    refine ⟨?_, ?_⟩
    · rintro rfl
      exact (hnone p hp).1 (Option.some.inj (hid.symm.trans h₁))
    · rintro rfl
      exact (hnone p hp).2 (Option.some.inj (hid.symm.trans h₂))

/-- The open orders are those the matching sees. -/
theorem Indexed.isOpen_iff (h : Indexed w) : IsOpen order w ↔ order ∈ openOrders w := by
  rw [mem_openOrders]
  constructor
  · rintro ⟨id, hid, hopen⟩
    exact ⟨id, h id order hid, hid, hopen⟩
  · rintro ⟨id, -, hid, hopen⟩
    exact ⟨id, hid, hopen⟩

/-- Closing orders leaves the list of ids. -/
theorem Indexed.enter (h : Indexed w) (hp : Ready w p) : Indexed (enter w p) := by
  obtain ⟨⟨s₁, hs₁, -⟩, ⟨s₂, hs₂, -⟩, -⟩ := hp
  intro id order hid
  rw [idsOf_enter]
  rw [orderOf_enter] at hid
  split at hid
  · next heq =>
    rw [heq]
    exact h _ _ hs₂
  · split at hid
    · next heq =>
      rw [heq]
      exact h _ _ hs₁
    · exact h id order hid

theorem Indexed.congr (h : Indexed w) (hpers : w'.pers = w.pers) : Indexed w' := by
  intro id order hid
  unfold orderOf at hid
  unfold idsOf
  rw [hpers] at hid ⊢
  exact h id order hid

theorem Indexed.close (h : Indexed w) (hstored : orderOf w id = some order)
    (hpers : w'.pers = w.pers.set (.order id) order.close) : Indexed w' := by
  have hids : idsOf w' = idsOf w := by
    unfold idsOf
    rw [hpers, Store.get_set_of_ne _ (by simp)]
  intro j other hj
  rw [hids]
  rw [orderOf_close hpers] at hj
  split at hj
  · next heq =>
    rw [heq]
    exact h id order hstored
  · exact h j other hj

/-- A placement lists its order. -/
theorem Indexed.place (h : Indexed w) (hp : Places auth order w w') : Indexed w' := by
  intro j other hj
  rw [idsOf_place hp]
  rw [orderOf_place hp] at hj
  split at hj
  · next heq => simp [heq]
  · exact List.mem_append_left _ (h j other hj)

/-- By cases on the step. -/
theorem Indexed.after_step (h : Indexed o.before) (hl : Listed o.before)
    (hstep : IsStep (step chain) o) : Indexed o.after := by
  rcases Machine.succeeds_or_outside hstep with ⟨c, hc⟩ | ⟨x, hx⟩
  · obtain ⟨r, hexec⟩ := hc.2
    cases exec_effect hexec with
    | placed order entry heffect => exact h.place heffect
    | matched entry heffect =>
      exact (foldl_enter (fun _ _ => Indexed.enter) h hl.picks_ready).congr heffect.eq_foldl.1
    | settled caller id order entry heffect => exact h.close heffect.stored heffect.pers
    | cancelled caller id order entry heffect => exact h.close heffect.stored heffect.pers
    | view same =>
      rw [same]
      exact h
  · rw [hx]
    exact h.congr rfl

/-- By induction over the run. -/
theorem indexed_run {w₀ : World X} (h₀ : Machine.Fresh w₀) (acts : List (Action X)) :
    Indexed (run (step chain) w₀ acts) := by
  have hinv : Listed (run (step chain) w₀ acts) ∧ Indexed (run (step chain) w₀ acts) := by
    refine run_invariant_of_trace (step chain) (P := fun w => Listed w ∧ Indexed w) ?_ ?_
    · have hlisted : Listed (run (step chain) w₀ []) := listed_run h₀ []
      refine ⟨hlisted, fun id order hid => ?_⟩
      unfold orderOf at hid
      rw [h₀.pers] at hid
      cases hid
    · intro o ho hbefore
      have hstep := isStep_of_mem _ ho
      exact ⟨hbefore.1.after_step hstep, hbefore.2.after_step hbefore.1 hstep⟩
  exact hinv.2

/-- A buy is matched when something behind it crosses. -/
theorem findsLater_iff {book : List Order} (hbuy : buy.isBuy = true) :
    FindsLater book buy ↔ ∃ sell, Picks book buy sell := by
  constructor
  · rintro ⟨l₁, l₂, rfl, hfinds⟩
    obtain ⟨p, hp⟩ := Option.isSome_iff_exists.mp (pick_isSome.mpr hfinds)
    obtain ⟨-, hcrosses, m₂, m₃, rfl, hfirst⟩ :=
      pick_eq_some.mp (show pick buy l₂ = some (p.1, p.2) from hp)
    exact ⟨p.2, l₁, m₂, m₃, rfl, hbuy, hcrosses, hfirst⟩
  · rintro ⟨sell, l₁, l₂, l₃, rfl, -, hcrosses, -⟩
    exact ⟨l₁, _, rfl, sell, by simp, hcrosses⟩

/-- A match leaves nothing that crosses just when of every buy and sell that cross the buy crosses
a later sell as well, or the sell is the first one some earlier buy crosses. -/
theorem nothingLeft_iff (h : Listed w) (hindexed : Indexed w)
    (hrecorded : Recorded (picks (openOrders w)) w w') :
    NothingLeft w' ↔ ∀ buy ∈ openOrders w, ∀ sell ∈ openOrders w, buy.isBuy = true →
      Crosses buy sell → FindsLater (openOrders w) buy ∨ ∃ b, Picks (openOrders w) b sell := by
  constructor
  · intro hleft buy hbuymem sell hsellmem hbuy hcrosses
    by_contra hnone
    obtain ⟨hlater, hfirst⟩ := not_or.mp hnone
    rw [findsLater_iff hbuy] at hlater
    refine hleft buy sell ?_ ?_ hbuy hcrosses
    · refine (isOpen_recorded h hrecorded).mpr ⟨hindexed.isOpen_iff.mpr hbuymem, fun p hp => ?_⟩
      have hpicks := picks_of_mem hp
      refine ⟨?_, hpicks.crosses.ne hbuy⟩
      rintro rfl
      exact hlater ⟨p.2, hpicks⟩
    · refine (isOpen_recorded h hrecorded).mpr ⟨hindexed.isOpen_iff.mpr hsellmem, fun p hp => ?_⟩
      have hpicks := picks_of_mem hp
      refine ⟨(hcrosses.ne hpicks.isBuy).symm, ?_⟩
      rintro rfl
      exact hfirst ⟨p.1, hpicks⟩
  · intro hcond buy sell hbuyopen hsellopen hbuy hcrosses
    obtain ⟨hbuyopen, hbuyfree⟩ := (isOpen_recorded h hrecorded).mp hbuyopen
    obtain ⟨hsellopen, hsellfree⟩ := (isOpen_recorded h hrecorded).mp hsellopen
    rcases hcond buy (hindexed.isOpen_iff.mp hbuyopen) sell (hindexed.isOpen_iff.mp hsellopen)
      hbuy hcrosses with hlater | ⟨b, hpicks⟩
    · obtain ⟨s, hpicks⟩ := (findsLater_iff hbuy).mp hlater
      exact (hbuyfree _ (mem_picks.mpr hpicks)).1 rfl
    · exact (hsellfree _ (mem_picks.mpr hpicks)).2 rfl

end Left

/-! ## Books that can be placed -/

/-- What a placement fixes. -/
structure Terms where
  owner : Address
  derivativeType : Symbol
  underlying : Address
  strikePrice : I128
  expiry : UInt64
  quantity : I128
  isBuy : Bool
deriving DecidableEq, Repr

/-- Everything but the id and the flag. -/
def Order.terms (order : Order) : Terms :=
  ⟨order.owner, order.derivativeType, order.underlying, order.strikePrice, order.expiry,
    order.quantity, order.isBuy⟩

/-- The call that places an order with these terms, in the first ledger. -/
def Terms.placement (t : Terms) : Action X :=
  .call ⟨0, [t.owner], .placeOrder t.owner t.derivativeType t.underlying t.strikePrice t.expiry
    t.quantity t.isBuy⟩

/-- The terms pass the checks of `place_order`. -/
def Terms.Valid (t : Terms) : Prop := 0 < t.quantity.val ∧ 0 < t.strikePrice.val

section Placing

variable {chain : Chain X} {w w' w₀ : World X} {t : Terms} {ts : List Terms} {a b : Order}
  {order : Order} {auth : List Address} {rest rest' book book' : List Order}

/-- Crossing depends on the terms alone. -/
theorem crosses_congr {a' b' : Order} (ha : a.terms = a'.terms) (hb : b.terms = b'.terms) :
    Crosses a b ↔ Crosses a' b' := by
  simp only [Order.terms, Terms.mk.injEq] at ha hb
  simp [Crosses, ha, hb]

/-- So does the quantity. -/
theorem matchQty_congr {a' b' : Order} (ha : a.terms = a'.terms) (hb : b.terms = b'.terms) :
    matchQty a b = matchQty a' b' := by
  simp only [Order.terms, Terms.mk.injEq] at ha hb
  simp [matchQty, ha, hb]

/-- And what the inner loop finds. -/
theorem pick_congr {a' : Order} (ha : a.terms = a'.terms)
    (hrest : rest.map Order.terms = rest'.map Order.terms) :
    (pick a rest).map (fun p => matchQty p.1 p.2)
      = (pick a' rest').map fun p => matchQty p.1 p.2 := by
  induction rest generalizing rest' with
  | nil =>
    cases rest' with
    | nil => rfl
    | cons y ys => cases hrest
  | cons x xs ih =>
    cases rest' with
    | nil => cases hrest
    | cons y ys =>
      obtain ⟨hxy, htail⟩ := List.cons.inj hrest
      have hiff := crosses_congr ha hxy
      unfold pick at ih ⊢
      rw [List.find?_cons, List.find?_cons]
      by_cases hcrosses : Crosses a x
      · simp [hcrosses, hiff.mp hcrosses, matchQty_congr ha hxy]
      · simpa [hcrosses, mt hiff.mpr hcrosses] using ih htail

/-- The matched quantities are a matter of the terms of the orders, in their order. -/
theorem matchedQuantities_congr (h : book.map Order.terms = book'.map Order.terms) :
    matchedQuantities book = matchedQuantities book' := by
  induction book generalizing book' with
  | nil =>
    cases book' with
    | nil => rfl
    | cons y ys => cases h
  | cons x xs ih =>
    cases book' with
    | nil => cases h
    | cons y ys =>
      obtain ⟨hxy, htail⟩ := List.cons.inj h
      have hside : x.isBuy = y.isBuy := congrArg Terms.isBuy hxy
      have hpick := pick_congr hxy htail
      have hrest := ih htail
      unfold matchedQuantities at hrest ⊢
      rw [picks, picks, List.map_append, List.map_append, hrest, hside]
      congr 1
      split
      · rw [← Option.toList_map, ← Option.toList_map, hpick]
      · rfl

/-- A new order comes last in the book. -/
theorem openOrders_place (h : Booked w) (hroom : HasRoom w) (hp : Places auth order w w') :
    openOrders w' = openOrders w ++ [order] := by
  obtain ⟨-, hnew, -⟩ := h.next_free hroom
  rw [← hp.id] at hnew
  have hold : ∀ id ∈ idsOf w, openOrder w' id = openOrder w id := by
    intro id hid
    unfold openOrder
    rw [orderOf_place hp, if_neg]
    rintro rfl
    exact hnew hid
  have hplaced : openOrder w' order.id = some order := by
    rw [openOrder_eq_some, orderOf_place hp, if_pos rfl]
    exact ⟨rfl, hp.isOpen⟩
  unfold openOrders
  rw [idsOf_place hp, List.filterMap_append, List.filterMap_congr hold]
  simp [hplaced]

/-- In the first ledger nothing is archived, and a valid placement succeeds. -/
theorem placement_succeeds (chain : Chain X) (w : World X) (hvalid : t.Valid) :
    ∃ order, order.terms = t ∧ Places [t.owner] order w (step chain w t.placement) := by
  let call : Call := ⟨0, [t.owner], .placeOrder t.owner t.derivativeType t.underlying
    t.strikePrice t.expiry t.quantity t.isBuy⟩
  have hload : ∀ (e : World X) k, ¬e.Archived
      (chain.ctx 0 [t.owner] : Ctx DataKey DataKey.Val Event DerivativesError X) k :=
    fun e k hdead => Nat.not_lt_zero _ hdead.2.2
  have hlive : InstanceLive
      (chain.ctx 0 [t.owner] : Ctx DataKey DataKey.Val Event DerivativesError X) w :=
    fun hdead => Nat.not_lt_zero _ hdead.2
  have hruns : twp (program call.entry) (chain.ctx call.sequence call.auth) w
      fun _ _ => True := by
    have hpositive : ¬(t.quantity ≤ 0 ∨ t.strikePrice ≤ 0) :=
      not_or.mpr ⟨not_le.mpr hvalid.1, not_le.mpr hvalid.2⟩
    simp only [call, program, placeOrder, twp_bind, twp_requireAuth, twp_panicIf,
      twp_persistentGet, twp_persistentSet, twp_publish, twp_pure]
    exact ⟨List.mem_singleton_self _, hpositive, hload _ _, hload _ _, hload _ _, hload _ _,
      hload _ _, trivial⟩
  obtain ⟨r, w', hexec, -⟩ := Machine.exec_of_twp call hlive hruns
  have hstep : step chain w t.placement = w' := Machine.step_call_ok hexec
  rw [hstep]
  exact ⟨_, rfl, (exec_placeOrder rfl hexec).2⟩

/-- Every list of valid terms that is not too long is the book of a reachable state. -/
theorem placed_book (chain : Chain X) (h₀ : Machine.Fresh w₀) (ts : List Terms)
    (hvalid : ∀ t ∈ ts, t.Valid) (hlength : ts.length < 2 ^ 64) :
    (openOrders (run (step chain) w₀ (ts.map Terms.placement))).map Order.terms = ts := by
  have hinv : Booked (run (step chain) w₀ (ts.map Terms.placement)) ∧
      (countOf (run (step chain) w₀ (ts.map Terms.placement))).toNat = ts.length ∧
      (openOrders (run (step chain) w₀ (ts.map Terms.placement))).map Order.terms = ts := by
    induction ts using List.reverseRecOn with
    | nil =>
      refine ⟨.of_fresh h₀, ?_, ?_⟩
      · show (countOf w₀).toNat = 0
        unfold countOf
        rw [h₀.pers]
        rfl
      · show (openOrders w₀).map Order.terms = []
        unfold openOrders idsOf
        rw [h₀.pers]
        rfl
    | append_singleton ts t ih =>
      rw [List.length_append, List.length_singleton] at hlength
      obtain ⟨hbooked, hcount, hbook⟩ := ih (fun s hs => hvalid s (by simp [hs])) (by omega)
      have hroom : HasRoom (run (step chain) w₀ (ts.map Terms.placement)) := by
        unfold HasRoom
        omega
      obtain ⟨order, hterms, hplaces⟩ := placement_succeeds chain
        (run (step chain) w₀ (ts.map Terms.placement)) (hvalid t (by simp))
      rw [List.map_append, List.map_singleton, run_concat]
      refine ⟨hbooked.place hroom hplaces, ?_, ?_⟩
      · have hnext := (hbooked.next_free hroom).2.2
        unfold countOf
        rw [hplaces.pers, Store.get_set_of_ne _ (by simp), Store.get_set_self, hplaces.id]
        rw [List.length_append, List.length_singleton, ← hcount]
        exact hnext
      · rw [openOrders_place hbooked hroom hplaces, List.map_append, hbook, List.map_singleton,
          hterms]
  exact hinv.2.2

end Placing

/-! ## Whole runs -/

section Run

variable {chain : Chain X} {w₀ : World X}

/-- In every state of every run from the deployment, `match_orders` records exactly the pairs of
the book, and

* it leaves no buy and sell behind that cross, just when of every buy and sell that cross the buy
  crosses a later sell as well or the sell is the first one that some earlier buy crosses;
* moreover the matched quantities do not depend on the places of a buy and a sell, just when no open
  buy crosses an open sell.

Every exchange of a buy and a sell in a book of less than `2^64` orders is the book of another run,
which matches what the exchanged book says. -/
theorem match_complete_iff (h₀ : Machine.Fresh w₀) (acts : List (Action X)) {call : Call} {r : Ret}
    {w' : World X} (hentry : call.entry = .matchOrders)
    (hexec : exec chain call (run (step chain) w₀ acts) = .ok (r, w')) :
    Recorded (picks (openOrders (run (step chain) w₀ acts))) (run (step chain) w₀ acts) w' ∧
    (NothingLeft w' ↔
      ∀ buy ∈ openOrders (run (step chain) w₀ acts),
        ∀ sell ∈ openOrders (run (step chain) w₀ acts), buy.isBuy = true → Crosses buy sell →
          FindsLater (openOrders (run (step chain) w₀ acts)) buy ∨
            ∃ b, Picks (openOrders (run (step chain) w₀ acts)) b sell) ∧
    ((NothingLeft w' ∧ OrderFree (openOrders (run (step chain) w₀ acts))) ↔
      ¬HasCrossing (openOrders (run (step chain) w₀ acts))) ∧
    ∀ book', Exchanged (openOrders (run (step chain) w₀ acts)) book' → book'.length < 2 ^ 64 →
      ∃ acts', (openOrders (run (step chain) w₀ acts')).map Order.terms = book'.map Order.terms ∧
        matchedQuantities (openOrders (run (step chain) w₀ acts')) = matchedQuantities book' := by
  generalize hw : run (step chain) w₀ acts = w at hexec ⊢
  have hlisted : Listed w := by
    rw [← hw]
    exact listed_run h₀ acts
  have hindexed : Indexed w := by
    rw [← hw]
    exact indexed_run h₀ acts
  have hrecorded := exec_matchOrders hentry hexec
  refine ⟨hrecorded, nothingLeft_iff hlisted hindexed hrecorded, ?_, ?_⟩
  · rw [orderFree_iff]
    refine ⟨fun h => h.2, fun hnone => ⟨?_, hnone⟩⟩
    refine (nothingLeft_iff hlisted hindexed hrecorded).mpr ?_
    intro buy hbuymem sell hsellmem hbuy hcrosses
    exact absurd ⟨buy, hbuymem, sell, hsellmem, hbuy, hcrosses⟩ hnone
  · intro book' hexchanged hlength
    have hvalid : ∀ t ∈ book'.map Order.terms, t.Valid := by
      intro t ht
      obtain ⟨order, hmem, rfl⟩ := List.mem_map.mp ht
      have hstored := (hlisted.open_stored (hexchanged.mem_iff.mp hmem)).1
      exact (hlisted.stored _ _ hstored).2
    have hbook := placed_book chain h₀ _ hvalid (by rw [List.length_map]; exact hlength)
    exact ⟨_, hbook, matchedQuantities_congr hbook⟩

end Run

/-- Two sells and two buys of one type, each buy below each sell: nothing is matched, and in no other
order of the placements would anything be. -/
theorem match_complete_iff_sample :
    let acts : List (Action (Clocked Balances)) :=
      [.call ⟨1, [⟨6⟩], .placeOrder ⟨6⟩ callSymbol ⟨1⟩ 100 9999 10 false⟩,
        .call ⟨1, [⟨5⟩], .placeOrder ⟨5⟩ callSymbol ⟨1⟩ 80 9999 10 true⟩,
        .call ⟨1, [⟨7⟩], .placeOrder ⟨7⟩ callSymbol ⟨1⟩ 90 9999 4 false⟩,
        .call ⟨1, [⟨5⟩], .placeOrder ⟨5⟩ callSymbol ⟨1⟩ 85 9999 6 true⟩]
    ∃ w', exec sampleChain ⟨2, [], .matchOrders⟩ (run (step sampleChain) sampleWorld acts)
        = .ok (.unit, w') ∧ NothingLeft w' ∧
      OrderFree (openOrders (run (step sampleChain) sampleWorld acts)) := by
  intro acts
  refine ⟨_, rfl, ?_⟩
  have hentry : (⟨2, [], .matchOrders⟩ : Call).entry = .matchOrders := rfl
  refine (match_complete_iff (Machine.freshEnv_fresh _) acts hentry rfl).2.2.1.mpr ?_
  unfold HasCrossing
  decide

/-- A sell and a buy that cross. With the sell placed first nothing is matched and both stay open;
with the buy placed first they are matched. -/
theorem sell_first_not_matched :
    let sell : Action (Clocked Balances) :=
      .call ⟨1, [⟨6⟩], .placeOrder ⟨6⟩ callSymbol ⟨1⟩ 90 9999 10 false⟩
    let buy : Action (Clocked Balances) :=
      .call ⟨1, [⟨5⟩], .placeOrder ⟨5⟩ callSymbol ⟨1⟩ 100 9999 10 true⟩
    let w := run (step sampleChain) sampleWorld [sell, buy]
    let v := run (step sampleChain) sampleWorld [buy, sell]
    (∃ w', exec sampleChain ⟨2, [], .matchOrders⟩ w = .ok (.unit, w') ∧ ¬NothingLeft w' ∧
      w'.events = w.events) ∧ matchedQuantities (openOrders w) = [] ∧
    (∃ v', exec sampleChain ⟨2, [], .matchOrders⟩ v = .ok (.unit, v') ∧
      v'.events = v.events ++ [.matched 1 2 90] ∧
      positionOf v' ⟨5⟩ 1 = some ⟨⟨5⟩, 1, 10, 90⟩) ∧
      matchedQuantities (openOrders v) = [10] := by
  intro sell buy w v
  refine ⟨⟨_, rfl, fun hleft => ?_, rfl⟩, rfl, ⟨_, rfl, rfl, rfl⟩, rfl⟩
  refine hleft ⟨2, ⟨5⟩, callSymbol, ⟨1⟩, 100, 9999, 10, true, false⟩
    ⟨1, ⟨6⟩, callSymbol, ⟨1⟩, 90, 9999, 10, false, false⟩ ⟨2, rfl, rfl⟩ ⟨1, rfl, rfl⟩ rfl ?_
  decide

end Derivatives
