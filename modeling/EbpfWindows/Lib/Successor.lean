import Mathlib.Data.List.Perm.Basic
import Mathlib.Data.List.Nodup

/-! Successors in a finite list.

Two scans a program uses to find what follows a previous element. `scanAfter` walks a
list for the first element a test accepts, carrying whether it has been seen, and
returns the element after it. `improve`, folded over a list, keeps the least element
above a bound that passes a filter, under a three-way comparison of keys that need only
order the keys the list holds. `chain` feeds each result back to the successor
function, as a caller enumerating a collection does.
-/

set_option autoImplicit false

namespace Successor

variable {α ε : Type*}

/-! ## Feeding results back -/

/-- An element as a result, or `done` when there is none. -/
def resultOr (done : ε) : Option α → Except ε α
  | none => .error done
  | some x => .ok x

theorem resultOr_eq_ok_iff {done : ε} {found : Option α} {x : α} : resultOr done found = .ok x ↔ found = some x := by
  cases found <;> simp [resultOr]

theorem resultOr_eq_error_iff {done error : ε} {found : Option α} :
    resultOr done found = .error error ↔ found = none ∧ error = done := by
  cases found <;> simp [resultOr, eq_comm]

/-- The result of the `n`-th call when each call is given the previous result, from `first`. -/
def chain (first : Except ε α) (next : α → Except ε α) : Nat → Except ε α
  | 0 => first
  | n + 1 => (chain first next n).bind next

theorem chain_eq_getElem? {first : Except ε α} {next : α → Except ε α} {done : ε} (l : List α)
    (starts : first = resultOr done l[0]?)
    (steps : ∀ i (h : i < l.length), next l[i] = resultOr done l[i + 1]?) :
    ∀ i ≤ l.length, chain first next i = resultOr done l[i]? := by
  intro i
  induction i with
  | zero => exact fun _ => starts
  | succ i ih =>
    intro bound
    have before : i < l.length := by omega
    rw [chain, ih (Nat.le_of_lt before), List.getElem?_eq_getElem before]
    exact steps i before

/-! ## The element after a match -/

section Scan

variable (accepts : α → Bool)

/-- The element after the first one `accepts` takes, where `found` tells whether that one
has been seen already: whether it was seen by the end, and the element after it. -/
def scanAfter : Bool → List α → Bool × Option α
  | found, [] => (found, none)
  | true, x :: _ => (true, some x)
  | false, x :: rest => scanAfter (accepts x) rest

theorem scanAfter_true (l : List α) : scanAfter accepts true l = (true, l.head?) := by
  cases l <;> rfl

theorem scanAfter_append (found : Bool) (first second : List α) :
    scanAfter accepts found (first ++ second) =
      match scanAfter accepts found first with
      | (seen, some x) => (seen, some x)
      | (seen, none) => scanAfter accepts seen second := by
  induction first generalizing found with
  | nil => rfl
  | cons x rest ih =>
    cases found with
    | true => rfl
    | false => exact ih (accepts x)

theorem scanAfter_of_rejected (l : List α) (rejected : ∀ x ∈ l, accepts x = false) :
    scanAfter accepts false l = (false, none) := by
  induction l with
  | nil => rfl
  | cons x rest ih =>
    rw [scanAfter, rejected x List.mem_cons_self]
    exact ih fun y member => rejected y (List.mem_cons_of_mem x member)

theorem scanAfter_middle (before after : List α) (x : α) (rejected : ∀ y ∈ before, accepts y = false)
    (accepted : accepts x = true) : scanAfter accepts false (before ++ x :: after) = (true, after.head?) := by
  rw [scanAfter_append, scanAfter_of_rejected accepts before rejected]
  show scanAfter accepts (accepts x) after = _
  rw [accepted, scanAfter_true]

theorem mem_of_scanAfter {found seen : Bool} {l : List α} {x : α} (scanned : scanAfter accepts found l = (seen, some x)) :
    x ∈ l := by
  induction l generalizing found with
  | nil => cases scanned
  | cons y rest ih =>
    cases found with
    | true =>
      simp only [scanAfter, Prod.mk.injEq, Option.some.injEq] at scanned
      exact scanned.2 ▸ List.mem_cons_self
    | false => exact List.mem_cons_of_mem y (ih scanned)

end Scan

/-! ## The least element above a bound -/

section Least

variable {κ : Type*} (key : α → κ) (compare : κ → κ → Int)

/-- `compare` is a three-way comparison of a strict total order on `keys`: negative below,
positive above, and neither only on equal keys. -/
structure ThreeWayOn (keys : Set κ) : Prop where
  irrefl : ∀ a ∈ keys, ¬ compare a a < 0
  trans : ∀ a ∈ keys, ∀ b ∈ keys, ∀ c ∈ keys, compare a b < 0 → compare b c < 0 → compare a c < 0
  trichotomous : ∀ a ∈ keys, ∀ b ∈ keys, compare a b < 0 ∨ a = b ∨ compare b a < 0
  flip : ∀ a ∈ keys, ∀ b ∈ keys, 0 < compare a b ↔ compare b a < 0

/-- What the scan is after: an element above the bound, if there is one, that passes the filter. -/
def Admits (bound : Option κ) (pass : α → Bool) (x : α) : Prop :=
  bound.all (fun b => compare b (key x) < 0) = true ∧ pass x = true

/-- `least` is the element of `l` the scan is after whose key is below every other one's. -/
def IsLeastOf (admits : α → Prop) (l : List α) (least : α) : Prop :=
  least ∈ l ∧ admits least ∧ ∀ x ∈ l, admits x → x ≠ least → compare (key least) (key x) < 0

/-- One step of the scan, testing in the order that calls the filter only when it must:
the bound, the incumbent, then the filter. -/
def improve (bound : Option κ) (pass : α → Bool) (best : Option α) (x : α) : Option α :=
  if bound.all (fun b => compare b (key x) < 0) then
    if best.all (fun b => 0 < compare (key b) (key x)) then
      if pass x then some x else best
    else best
  else best

/-- The least element of `l` above `bound` that passes `pass`. -/
def leastAbove (bound : Option κ) (pass : α → Bool) (l : List α) : Option α :=
  l.foldl (improve key compare bound pass) none

variable {key compare} {keys : Set κ} {bound : Option κ} {pass : α → Bool}

namespace ThreeWayOn

theorem asymm (order : ThreeWayOn compare keys) {a b : κ} (ha : a ∈ keys) (hb : b ∈ keys)
    (below : compare a b < 0) : ¬ compare b a < 0 :=
  fun above => order.irrefl a ha (order.trans a ha b hb a ha below above)

theorem not_lt_trans (order : ThreeWayOn compare keys) {a b c : κ} (ha : a ∈ keys) (hb : b ∈ keys)
    (hc : c ∈ keys) (first : ¬ compare a b < 0) (second : ¬ compare b c < 0) : ¬ compare a c < 0 := by
  intro below
  rcases order.trichotomous a ha b hb with lt | rfl | gt
  · exact first lt
  · exact second below
  · exact second (order.trans b hb a ha c hc gt below)

end ThreeWayOn

theorem improve_eq_none_iff {best : Option α} {x : α} :
    improve key compare bound pass best x = none ↔ best = none ∧ ¬ Admits key compare bound pass x := by
  unfold improve Admits
  cases best <;> split_ifs <;> simp_all

theorem mem_improve {best : Option α} {x b : α} (kept : b ∈ improve key compare bound pass best x) :
    b ∈ best ∨ (b = x ∧ Admits key compare bound pass x) := by
  unfold improve at kept
  unfold Admits
  split_ifs at kept with above beats passes
  · exact .inr ⟨(Option.mem_some_iff.mp kept).symm, above, passes⟩
  all_goals exact .inl kept

theorem improve_below (order : ThreeWayOn compare keys) {best : Option α} {x y : α} (hx : key x ∈ keys)
    (bestKey : ∀ b ∈ best, key b ∈ keys) (candidate : y ∈ best ∨ y = x) (admitted : Admits key compare bound pass y) :
    ∃ c, improve key compare bound pass best x = some c ∧ ¬ compare (key y) (key c) < 0 := by
  have yKey : key y ∈ keys := by
    rcases candidate with member | rfl
    · exact bestKey y member
    · exact hx
  unfold improve
  split_ifs with above beats passes
  · -- the element replaces the incumbent: it was below it
    refine ⟨x, rfl, ?_⟩
    rcases candidate with member | rfl
    · have below : compare (key x) (key y) < 0 := by
        rw [Option.mem_def] at member
        subst member
        exact (order.flip _ yKey _ hx).mp (by simpa using beats)
      exact order.asymm hx yKey below
    · exact order.irrefl _ yKey
  · rcases candidate with member | rfl
    · exact ⟨y, member, order.irrefl _ yKey⟩
    · exact absurd admitted.2 (by simpa using passes)
  · -- the incumbent stays: the element was not below it
    rcases candidate with member | rfl
    · exact ⟨y, member, order.irrefl _ yKey⟩
    · obtain ⟨b, rfl⟩ : ∃ b, best = some b := Option.ne_none_iff_exists'.mp (by rintro rfl; simp at beats)
      have notBelow : ¬ 0 < compare (key b) (key y) := by simpa using beats
      exact ⟨b, rfl, fun below => notBelow ((order.flip _ (bestKey b rfl) _ yKey).mpr below)⟩
  · rcases candidate with member | rfl
    · exact ⟨y, member, order.irrefl _ yKey⟩
    · exact absurd admitted.1 above

theorem foldl_improve_eq_none_iff (l : List α) (best : Option α) :
    l.foldl (improve key compare bound pass) best = none ↔
      best = none ∧ ∀ x ∈ l, ¬ Admits key compare bound pass x := by
  induction l generalizing best with
  | nil => simp
  | cons x rest ih =>
    rw [List.foldl_cons, ih, improve_eq_none_iff]
    simp only [List.mem_cons, forall_eq_or_imp]
    tauto

theorem foldl_improve_spec (order : ThreeWayOn compare keys) {l : List α} (inKeys : ∀ x ∈ l, key x ∈ keys) :
    ∀ {best : Option α} {least : α}, (∀ b ∈ best, key b ∈ keys ∧ Admits key compare bound pass b) →
      l.foldl (improve key compare bound pass) best = some least →
      (least ∈ best ∨ least ∈ l) ∧ Admits key compare bound pass least ∧
        ∀ x, (x ∈ best ∨ x ∈ l) → Admits key compare bound pass x → ¬ compare (key x) (key least) < 0 := by
  induction l with
  | nil =>
    intro best least valid found
    have member : least ∈ best := found
    refine ⟨.inl member, (valid least member).2, ?_⟩
    rintro x (inBest | nowhere) -
    · rw [Option.mem_unique inBest member]
      exact order.irrefl _ (valid least member).1
    · simp at nowhere
  | cons x rest ih =>
    intro best least valid found
    have xKey := inKeys x List.mem_cons_self
    have restKeys : ∀ y ∈ rest, key y ∈ keys := fun y member => inKeys y (List.mem_cons_of_mem x member)
    have stepValid : ∀ b ∈ improve key compare bound pass best x, key b ∈ keys ∧ Admits key compare bound pass b := by
      intro b member
      rcases mem_improve member with kept | ⟨rfl, admitted⟩
      · exact valid b kept
      · exact ⟨xKey, admitted⟩
    obtain ⟨where_, admitted, minimal⟩ := ih restKeys stepValid found
    have leastKey : key least ∈ keys := by
      rcases where_ with inStep | inRest
      · exact (stepValid least inStep).1
      · exact restKeys least inRest
    have through : ∀ y, (y ∈ best ∨ y = x) → key y ∈ keys → Admits key compare bound pass y →
        ¬ compare (key y) (key least) < 0 := by
      intro y candidate yKey yAdmitted
      obtain ⟨c, step, notBelow⟩ := improve_below order xKey (fun b member => (valid b member).1) candidate yAdmitted
      exact order.not_lt_trans yKey (stepValid c step).1 leastKey notBelow
        (minimal c (.inl step) (stepValid c step).2)
    refine ⟨?_, admitted, ?_⟩
    · rcases where_ with inStep | inRest
      · rcases mem_improve inStep with kept | ⟨rfl, -⟩
        · exact .inl kept
        · exact .inr List.mem_cons_self
      · exact .inr (List.mem_cons_of_mem x inRest)
    · intro y candidate yAdmitted
      rcases candidate with inBest | inList
      · exact through y (.inl inBest) (valid y inBest).1 yAdmitted
      rcases List.mem_cons.mp inList with rfl | inRest
      · exact through y (.inr rfl) xKey yAdmitted
      · exact minimal y (.inr inRest) yAdmitted

theorem leastAbove_some_congr {a b : κ} (same : compare a = compare b) (l : List α) :
    leastAbove key compare (some a) pass l = leastAbove key compare (some b) pass l := by
  unfold leastAbove improve
  simp only [Option.all_some, same]

theorem foldl_improve_mem : ∀ {l : List α} {best : Option α} {x : α},
    l.foldl (improve key compare bound pass) best = some x → x ∈ best ∨ x ∈ l := by
  intro l
  induction l with
  | nil => intro best x found; exact .inl found
  | cons y rest ih =>
    intro best x found
    rcases ih found with kept | inRest
    · rcases mem_improve kept with old | ⟨rfl, -⟩
      · exact .inl old
      · exact .inr List.mem_cons_self
    · exact .inr (List.mem_cons_of_mem y inRest)

theorem mem_of_leastAbove_eq_some {l : List α} {x : α} (found : leastAbove key compare bound pass l = some x) :
    x ∈ l :=
  (foldl_improve_mem found).resolve_left (by simp)

theorem leastAbove_eq_none_iff (l : List α) :
    leastAbove key compare bound pass l = none ↔ ∀ x ∈ l, ¬ Admits key compare bound pass x := by
  rw [leastAbove, foldl_improve_eq_none_iff]
  simp

theorem leastAbove_eq_some_iff (order : ThreeWayOn compare keys) {l : List α} (inKeys : ∀ x ∈ l, key x ∈ keys)
    (distinct : (l.map key).Nodup) {least : α} :
    leastAbove key compare bound pass l = some least ↔
      IsLeastOf key compare (Admits key compare bound pass) l least := by
  constructor
  · intro found
    obtain ⟨member, admitted, minimal⟩ := foldl_improve_spec order inKeys (by simp) found
    have inList : least ∈ l := member.resolve_left (by simp)
    refine ⟨inList, admitted, fun x xIn xAdmitted different => ?_⟩
    rcases order.trichotomous (key least) (inKeys least inList) (key x) (inKeys x xIn) with below | same | above
    · exact below
    · exact absurd (List.inj_on_of_nodup_map distinct xIn inList same.symm) different
    · exact absurd above (minimal x (.inr xIn) xAdmitted)
  · rintro ⟨inList, admitted, below⟩
    obtain ⟨found, hfound⟩ : ∃ found, leastAbove key compare bound pass l = some found :=
      Option.ne_none_iff_exists'.mp fun none => (leastAbove_eq_none_iff l).mp none least inList admitted
    obtain ⟨member, foundAdmitted, minimal⟩ := foldl_improve_spec order inKeys (by simp) hfound
    have foundIn : found ∈ l := member.resolve_left (by simp)
    rw [hfound, Option.some.injEq]
    -- another admitted element would lie above the least one, which the scan rules out
    by_contra different
    exact minimal least (.inr inList) admitted (below found foundIn foundAdmitted different)

theorem foldl_improve_congr {key' : α → κ} {pass' : α → Bool} :
    ∀ {l : List α} {best : Option α}, (∀ x, (x ∈ best ∨ x ∈ l) → key x = key' x ∧ pass x = pass' x) →
      l.foldl (improve key compare bound pass) best = l.foldl (improve key' compare bound pass') best := by
  intro l
  induction l with
  | nil => intro best _; rfl
  | cons x rest ih =>
    intro best same
    obtain ⟨xKey, xPass⟩ := same x (.inr List.mem_cons_self)
    have step : improve key compare bound pass best x = improve key' compare bound pass' best x := by
      cases best with
      | none => simp only [improve, Option.all_none, xKey, xPass]
      | some b =>
        have bKey := (same b (.inl rfl)).1
        simp only [improve, Option.all_some, xKey, xPass, bKey]
    rw [List.foldl_cons, List.foldl_cons, ← step]
    refine ih fun y member => same y ?_
    rcases member with kept | inRest
    · rcases mem_improve kept with old | ⟨rfl, -⟩
      · exact .inl old
      · exact .inr List.mem_cons_self
    · exact .inr (List.mem_cons_of_mem x inRest)

theorem leastAbove_congr {key' : α → κ} {pass' : α → Bool} {l : List α}
    (same : ∀ x ∈ l, key x = key' x ∧ pass x = pass' x) :
    leastAbove key compare bound pass l = leastAbove key' compare bound pass' l :=
  foldl_improve_congr fun x member => same x (member.resolve_left (by simp))

theorem leastAbove_comp {μ : Type*} (view : κ → μ) (order : μ → μ → Int) (l : List α) :
    leastAbove key (fun a b => order (view a) (view b)) bound pass l =
      leastAbove (view ∘ key) order (bound.map view) pass l := by
  unfold leastAbove
  congr 1
  funext best x
  cases bound <;> rfl

theorem leastAbove_map {β : Type*} (f : α → β) (key' : β → κ) (pass' : β → Bool) (l : List α) :
    (leastAbove (key' ∘ f) compare bound (pass' ∘ f) l).map f = leastAbove key' compare bound pass' (l.map f) := by
  unfold leastAbove
  rw [List.foldl_map]
  refine (List.foldl_hom (Option.map f) fun best x => ?_).symm
  unfold improve
  cases best <;> simp only [Option.map_none, Option.map_some, Option.all_none, Option.all_some, Function.comp_apply] <;>
    split_ifs <;> rfl

/-! ## Listing in increasing order -/

theorem exists_sorted (order : ThreeWayOn compare keys) :
    ∀ {l : List α}, (∀ x ∈ l, key x ∈ keys) → (l.map key).Nodup →
      ∃ sorted : List α, sorted.Pairwise (fun a b => compare (key a) (key b) < 0) ∧ sorted.Perm l := by
  intro l
  induction l with
  | nil => exact fun _ _ => ⟨[], .nil, .nil⟩
  | cons x rest ih =>
    intro inKeys distinct
    have xKey := inKeys x List.mem_cons_self
    have restKeys : ∀ y ∈ rest, key y ∈ keys := fun y member => inKeys y (List.mem_cons_of_mem x member)
    have fresh : key x ∉ rest.map key := (List.nodup_cons.mp distinct).1
    obtain ⟨sorted, ordered, perm⟩ := ih restKeys (List.nodup_cons.mp distinct).2
    have sortedIn : ∀ y ∈ sorted, y ∈ rest := fun y member => perm.mem_iff.mp member
    let below : α → Bool := fun y => decide (compare (key y) (key x) < 0)
    have above : ∀ y ∈ sorted.filter (fun y => !below y), compare (key x) (key y) < 0 := by
      intro y member
      obtain ⟨inSorted, notBelow⟩ := List.mem_filter.mp member
      have yIn := sortedIn y inSorted
      rcases order.trichotomous (key x) xKey (key y) (restKeys y yIn) with lt | same | gt
      · exact lt
      · exact absurd (same ▸ List.mem_map_of_mem yIn) fresh
      · simp [below, gt] at notBelow
    refine ⟨sorted.filter below ++ x :: sorted.filter (fun y => !below y), ?_, ?_⟩
    · rw [List.pairwise_append, List.pairwise_cons]
      refine ⟨ordered.sublist List.filter_sublist, ⟨above, ordered.sublist List.filter_sublist⟩, ?_⟩
      intro a aBelow b bAfter
      have aLt : compare (key a) (key x) < 0 := by simpa [below] using (List.mem_filter.mp aBelow).2
      rcases List.mem_cons.mp bAfter with rfl | bAbove
      · exact aLt
      · exact order.trans _ (restKeys a (sortedIn a (List.mem_filter.mp aBelow).1)) _ xKey _
          (restKeys b (sortedIn b (List.mem_filter.mp bAbove).1)) aLt (above b bAbove)
    · exact List.perm_middle.trans (((List.filter_append_perm below sorted).trans perm).cons x)

theorem leastAbove_eq_getElem? (order : ThreeWayOn compare keys) {l : List α} (inKeys : ∀ x ∈ l, key x ∈ keys)
    (distinct : (l.map key).Nodup) {sorted : List α}
    (ordered : sorted.Pairwise (fun a b => compare (key a) (key b) < 0)) (members : ∀ x ∈ sorted, x ∈ l)
    (start : Nat)
    (admitted : ∀ x ∈ l, Admits key compare bound pass x ↔ ∃ j, ∃ h : j < sorted.length, start ≤ j ∧ sorted[j] = x) :
    leastAbove key compare bound pass l = sorted[start]? := by
  by_cases inside : start < sorted.length
  · rw [List.getElem?_eq_getElem inside, leastAbove_eq_some_iff order inKeys distinct]
    have member := members _ (List.getElem_mem inside)
    refine ⟨member, (admitted _ member).mpr ⟨start, inside, Nat.le_refl start, rfl⟩, fun x xIn xAdmitted different => ?_⟩
    obtain ⟨j, hj, later, rfl⟩ := (admitted x xIn).mp xAdmitted
    have strictly : start < j := Nat.lt_of_le_of_ne later fun same => different (by subst same; rfl)
    exact List.pairwise_iff_getElem.mp ordered start j inside hj strictly
  · rw [List.getElem?_eq_none (by omega), leastAbove_eq_none_iff]
    intro x xIn xAdmitted
    obtain ⟨j, hj, later, -⟩ := (admitted x xIn).mp xAdmitted
    omega

theorem chain_leastAbove (order : ThreeWayOn compare keys) {l : List α} (inKeys : ∀ x ∈ l, key x ∈ keys)
    (distinct : (l.map key).Nodup) (done : ε) {sorted : List α}
    (ordered : sorted.Pairwise (fun a b => compare (key a) (key b) < 0))
    (exactly : ∀ x, x ∈ sorted ↔ x ∈ l ∧ pass x = true) :
    ∀ i ≤ sorted.length, chain (resultOr done (leastAbove key compare none pass l))
      (fun x => resultOr done (leastAbove key compare (some (key x)) pass l)) i = resultOr done sorted[i]? := by
  have members : ∀ x ∈ sorted, x ∈ l := fun x member => ((exactly x).mp member).1
  have sortedKey : ∀ j (h : j < sorted.length), key sorted[j] ∈ keys :=
    fun j h => inKeys _ (members _ (List.getElem_mem h))
  apply chain_eq_getElem? sorted
  · -- the first call admits every passing element
    rw [leastAbove_eq_getElem? order inKeys distinct ordered members 0]
    intro x xIn
    simp only [Admits, Option.all_none, true_and]
    constructor
    · intro passes
      obtain ⟨j, hj, rfl⟩ := List.mem_iff_getElem.mp ((exactly x).mpr ⟨xIn, passes⟩)
      exact ⟨j, hj, Nat.zero_le j, rfl⟩
    · rintro ⟨j, hj, -, rfl⟩
      exact ((exactly _).mp (List.getElem_mem hj)).2
  · -- a later call admits the passing elements above the last result: those after it
    intro i hi
    rw [leastAbove_eq_getElem? order inKeys distinct ordered members (i + 1)]
    intro x xIn
    simp only [Admits, Option.all_some, decide_eq_true_eq]
    constructor
    · rintro ⟨above, passes⟩
      obtain ⟨j, hj, rfl⟩ := List.mem_iff_getElem.mp ((exactly x).mpr ⟨xIn, passes⟩)
      refine ⟨j, hj, ?_, rfl⟩
      by_contra notLater
      rcases Nat.lt_or_ge j i with before | atLeast
      · exact order.asymm (sortedKey j hj) (sortedKey i hi)
          (List.pairwise_iff_getElem.mp ordered j i hj hi before) above
      · have same : j = i := by omega
        subst same
        exact order.irrefl _ (sortedKey j hi) above
    · rintro ⟨j, hj, later, rfl⟩
      exact ⟨List.pairwise_iff_getElem.mp ordered i j hi hj later, ((exactly _).mp (List.getElem_mem hj)).2⟩

theorem resultOr_injective (done : ε) : Function.Injective (resultOr (α := α) done) := by
  intro first second same
  cases first <;> cases second <;> simp_all [resultOr]

theorem leastAbove_none_eq_head? (order : ThreeWayOn compare keys) {l : List α} (inKeys : ∀ x ∈ l, key x ∈ keys)
    (distinct : (l.map key).Nodup) {sorted : List α}
    (ordered : sorted.Pairwise (fun a b => compare (key a) (key b) < 0))
    (exactly : ∀ x, x ∈ sorted ↔ x ∈ l ∧ pass x = true) :
    leastAbove key compare none pass l = sorted[0]? :=
  resultOr_injective () (chain_leastAbove order inKeys distinct () ordered exactly 0 (Nat.zero_le _))

theorem leastAbove_getElem (order : ThreeWayOn compare keys) {l : List α} (inKeys : ∀ x ∈ l, key x ∈ keys)
    (distinct : (l.map key).Nodup) {sorted : List α}
    (ordered : sorted.Pairwise (fun a b => compare (key a) (key b) < 0))
    (exactly : ∀ x, x ∈ sorted ↔ x ∈ l ∧ pass x = true) {i : Nat} (h : i < sorted.length) :
    leastAbove key compare (some (key sorted[i])) pass l = sorted[i + 1]? := by
  have listed := chain_leastAbove order inKeys distinct () ordered exactly (i + 1) h
  rw [chain, chain_leastAbove order inKeys distinct () ordered exactly i (Nat.le_of_lt h),
    List.getElem?_eq_getElem h] at listed
  exact resultOr_injective () listed

end Least

end Successor
