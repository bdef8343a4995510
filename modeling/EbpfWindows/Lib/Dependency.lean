import Mathlib.Logic.Relation
import Mathlib.Data.Fintype.Pigeonhole
import Mathlib.Data.Set.Finite.Basic

/-! Creation in dependency order.

Each element of a collection either needs nothing or needs one other element to exist
first, named by a partial function `template`. An element `Resolves` when following the
templates from it ends at an element that needs nothing. A creation order is `Ordered`
when every element in it comes after the element it needs. A process that keeps adding an
element that is `Ready` (its need already met) builds an ordered list of resolving
elements, and as long as some resolving element is missing, some element is ready.

On a finite collection closed under `template`, every element resolves exactly when no
element needs a missing template and no chain of templates comes back to where it started.
-/

set_option autoImplicit false

namespace Dependency

open Relation

variable {α : Type} (needs : α → Prop) (template : α → Option α)

/-- `a` needs `b` first. -/
def Step (a b : α) : Prop := needs a ∧ template a = some b

/-- Following the templates from an element ends at one that needs nothing. -/
inductive Resolves : α → Prop
  | free {a : α} : ¬ needs a → Resolves a
  | after {a b : α} : needs a → template a = some b → Resolves b → Resolves a

/-- The need of `a` is met by what is `done`. -/
def Ready (done : α → Prop) (a : α) : Prop :=
  ¬ needs a ∨ ∃ b, template a = some b ∧ done b

/-- A list in which each element comes after the element it needs. -/
inductive Ordered : List α → Prop
  | nil : Ordered []
  | snoc {order : List α} {a : α} : Ordered order → Ready needs template (· ∈ order) a → Ordered (order ++ [a])

variable {needs template}

theorem Resolves.step {a b : α} (resolves : Resolves needs template a) (step : Step needs template a b) :
    Resolves needs template b := by
  cases resolves with
  | free free => exact absurd step.1 free
  | after _ found next =>
    rw [step.2] at found
    exact Option.some.inj found ▸ next

theorem Resolves.reflTransGen {a b : α} (resolves : Resolves needs template a)
    (path : ReflTransGen (Step needs template) a b) : Resolves needs template b := by
  induction path with
  | refl => exact resolves
  | tail _ step reached => exact reached.step step

theorem Resolves.template_isSome {a : α} (resolves : Resolves needs template a) (needed : needs a) :
    (template a).isSome := by
  cases resolves with
  | free free => exact absurd needed free
  | after _ found _ => simp [found]

theorem Resolves.not_cycle {a : α} (resolves : Resolves needs template a) :
    ¬ TransGen (Step needs template) a a := by
  induction resolves with
  | free free =>
    intro cycle
    obtain ⟨_, first, _⟩ := TransGen.head'_iff.mp cycle
    exact free first.1
  | @after a b needed found _ ih =>
    intro cycle
    obtain ⟨next, first, rest⟩ := TransGen.head'_iff.mp cycle
    obtain rfl : next = b := Option.some.inj (first.2.symm.trans found)
    exact ih (TransGen.tail' rest ⟨needed, found⟩)

theorem not_resolves_of_reaches {a k : α} (path : ReflTransGen (Step needs template) a k)
    (broken : (needs k ∧ template k = none) ∨ TransGen (Step needs template) k k) :
    ¬ Resolves needs template a := by
  intro resolves
  have reached := resolves.reflTransGen path
  rcases broken with ⟨needed, missing⟩ | cycle
  · simpa [missing] using reached.template_isSome needed
  · exact reached.not_cycle cycle

/-- The element `k` templates after `a`; a walk stays where it is once no template is left. -/
def walk (template : α → Option α) (a : α) : Nat → α
  | 0 => a
  | k + 1 => (template (walk template a k)).getD (walk template a k)

theorem walk_succ {a b : α} {k : Nat} (found : template (walk template a k) = some b) :
    walk template a (k + 1) = b := by
  simp [walk, found]

section Finite

variable {S : Set α} (closed : ∀ a b, a ∈ S → template a = some b → b ∈ S)
  (total : ∀ a ∈ S, needs a → (template a).isSome)
include closed total

theorem walk_unresolved {a : α} (start : a ∈ S) (unresolved : ¬ Resolves needs template a) :
    ∀ k, walk template a k ∈ S ∧ ¬ Resolves needs template (walk template a k) ∧
      Step needs template (walk template a k) (walk template a (k + 1))
  | 0 => by
    have needed : needs a := by
      by_contra free
      exact unresolved (.free free)
    obtain ⟨b, found⟩ := Option.isSome_iff_exists.mp (total a start needed)
    have found : template (walk template a 0) = some b := found
    exact ⟨start, unresolved, needed, by rw [found, walk_succ found]⟩
  | k + 1 => by
    obtain ⟨inside, stuck, needed, found⟩ := walk_unresolved start unresolved k
    have next : walk template a (k + 1) ∈ S := closed _ _ inside found
    have nextStuck : ¬ Resolves needs template (walk template a (k + 1)) :=
      fun resolves => stuck (.after needed found resolves)
    have nextNeeded : needs (walk template a (k + 1)) := by
      by_contra free
      exact nextStuck (.free free)
    obtain ⟨c, nextFound⟩ := Option.isSome_iff_exists.mp (total _ next nextNeeded)
    exact ⟨next, nextStuck, nextNeeded, by rw [nextFound, walk_succ nextFound]⟩

omit closed total in
theorem transGen_walk {a : α} (steps : ∀ k, Step needs template (walk template a k) (walk template a (k + 1)))
    {i j : Nat} (before : i < j) : TransGen (Step needs template) (walk template a i) (walk template a j) := by
  induction j with
  | zero => omega
  | succ j ih =>
    rcases Nat.lt_succ_iff_lt_or_eq.mp before with earlier | rfl
    · exact (ih earlier).tail (steps j)
    · exact .single (steps i)

theorem resolves_of_acyclic (finite : S.Finite) (acyclic : ∀ a, ¬ TransGen (Step needs template) a a) :
    ∀ a ∈ S, Resolves needs template a := by
  intro a start
  by_contra unresolved
  have walked := walk_unresolved closed total start unresolved
  have : Finite S := finite.to_subtype
  -- the walk never leaves the finite `S`, so it comes back to an element it has met
  obtain ⟨i, j, different, same⟩ :=
    Finite.exists_ne_map_eq_of_infinite fun k => (⟨walk template a k, (walked k).1⟩ : S)
  have same : walk template a i = walk template a j := congrArg Subtype.val same
  rcases Nat.lt_or_gt_of_ne different with before | after
  · exact acyclic _ (same ▸ transGen_walk (fun k => (walked k).2.2) before)
  · exact acyclic _ (same ▸ transGen_walk (fun k => (walked k).2.2) after)

end Finite

theorem Resolves.exists_ready {done : α → Prop} {a : α} (resolves : Resolves needs template a)
    (missing : ¬ done a) : ∃ k, ReflTransGen (Step needs template) a k ∧ ¬ done k ∧ Ready needs template done k := by
  induction resolves with
  | @free a free => exact ⟨a, .refl, missing, .inl free⟩
  | @after a b needed found _ ih =>
    by_cases made : done b
    · exact ⟨a, .refl, missing, .inr ⟨b, found, made⟩⟩
    · obtain ⟨k, path, notDone, ready⟩ := ih made
      exact ⟨k, .head ⟨needed, found⟩ path, notDone, ready⟩

theorem Ready.imp {done done' : α → Prop} {a : α} (ready : Ready needs template done a)
    (implies : ∀ b, done b → done' b) : Ready needs template done' a := by
  rcases ready with free | ⟨b, found, made⟩
  · exact .inl free
  · exact .inr ⟨b, found, implies b made⟩

theorem Ready.resolves {done : α → Prop} {a : α} (ready : Ready needs template done a)
    (doneResolves : ∀ b, done b → Resolves needs template b) : Resolves needs template a := by
  rcases ready with free | ⟨b, found, made⟩
  · exact .free free
  · by_cases needed : needs a
    · exact .after needed found (doneResolves b made)
    · exact .free needed

theorem Ordered.resolves {order : List α} (ordered : Ordered needs template order) :
    ∀ a ∈ order, Resolves needs template a := by
  induction ordered with
  | nil => exact fun _ member => by cases member
  | @snoc order a _ ready ih =>
    intro b member
    rcases List.mem_append.mp member with earlier | last
    · exact ih b earlier
    · obtain rfl := List.mem_singleton.mp last
      exact ready.resolves ih

theorem Ordered.exists_prefix {order : List α} (ordered : Ordered needs template order) {a b : α}
    (member : a ∈ order) (needed : needs a) (found : template a = some b) :
    ∃ before, before ++ [a] <+: order ∧ b ∈ before := by
  induction ordered with
  | nil => cases member
  | @snoc order last _ ready ih =>
    rcases List.mem_append.mp member with earlier | isLast
    · obtain ⟨before, prefixed, made⟩ := ih earlier
      exact ⟨before, prefixed.trans (List.prefix_append order [last]), made⟩
    · obtain rfl := List.mem_singleton.mp isLast
      rcases ready with free | ⟨c, foundC, made⟩
      · exact absurd needed free
      · obtain rfl : c = b := Option.some.inj (foundC.symm.trans found)
        exact ⟨order, List.prefix_refl _, made⟩

end Dependency
