import Mathlib.Data.List.Perm.Subperm
import Mathlib.Logic.Relation
import PipeSql.Script.Screen

set_option autoImplicit false

namespace PipeSql.Screen

open Relation

namespace Bindings

-- No later binding takes the place of the one that makes the reference.
def Refers (bindings : Bindings) (name first : String) : Prop :=
  ∃ earlier binding later, bindings = earlier ++ binding :: later ∧ binding.1.text = name ∧
    binding.2.text = first ∧ ∀ other ∈ later, other.1.text ≠ name

def OnCircle (bindings : Bindings) (name : String) : Prop :=
  TransGen bindings.Refers name name

-- The way from reference to reference, with no bound on its steps. No rule is for a way that never ends.
inductive Walk (bindings : Bindings) : List String → String → Option String → Prop where
  | ended {visited : List String} {current : String} (unbound : ∀ next, ¬bindings.Refers current next) :
      Walk bindings visited current none
  | returned {visited : List String} {current next : String} (refers : bindings.Refers current next)
      (known : next ∈ visited) : Walk bindings visited current (some next)
  | onward {visited : List String} {current next : String} {outcome : Option String}
      (refers : bindings.Refers current next) (fresh : next ∉ visited)
      (rest : Walk bindings (next :: visited) next outcome) : Walk bindings visited current outcome

variable {bindings : Bindings} {visited : List String} {current next name : String}

theorem target_iff : bindings.target? name = some next ↔ bindings.Refers name next := by
  simp only [target?, Option.map_eq_some_iff, List.find?_eq_some_iff_append, decide_eq_true_eq]
  constructor
  · rintro ⟨binding, ⟨named, later, earlier, reversed, others⟩, first⟩
    refine ⟨earlier.reverse, binding, later.reverse, ?_, named, first, ?_⟩
    · simpa using congrArg List.reverse reversed
    · intro other member
      simpa using others other (List.mem_reverse.1 member)
  · rintro ⟨earlier, binding, later, rfl, named, first, others⟩
    refine ⟨binding, ⟨named, later.reverse, earlier.reverse, by simp, ?_⟩, first⟩
    intro other member
    simpa using others other (List.mem_reverse.1 member)

theorem target_none : bindings.target? name = none ↔ ∀ next, ¬bindings.Refers name next := by
  simp only [Option.eq_none_iff_forall_ne_some, ne_eq, target_iff]

theorem refers_unique {other : String} (first : bindings.Refers name next) (second : bindings.Refers name other) :
    next = other := by
  rw [← target_iff] at first second
  exact Option.some.inj (first.symm.trans second)

theorem refers_bound (refers : bindings.Refers name next) : ∃ binding ∈ bindings, binding.1.text = name := by
  obtain ⟨earlier, binding, later, rfl, named, -⟩ := refers
  exact ⟨binding, by simp, named⟩

-- The names visited so far, all of which lead to the current one.
structure Trail (bindings : Bindings) (visited : List String) (current : String) : Prop where
  distinct : visited.Nodup
  leads : ∀ name ∈ visited, ReflTransGen bindings.Refers name current

theorem trail_start (bindings : Bindings) (name : String) : Trail bindings [name] name where
  distinct := by simp
  leads other member := by
    rw [List.mem_singleton.1 member]

theorem trail_step (trail : Trail bindings visited current) (refers : bindings.Refers current next)
    (fresh : next ∉ visited) : Trail bindings (next :: visited) next where
  distinct := List.nodup_cons.2 ⟨fresh, trail.distinct⟩
  leads other member := by
    rcases List.mem_cons.1 member with rfl | member
    · exact .refl
    · exact (trail.leads other member).tail refers

theorem trail_short (trail : Trail bindings visited current) : visited.length ≤ bindings.length + 1 := by
  have known : visited ⊆ current :: bindings.map (·.1.text) := by
    intro other member
    rcases (trail.leads other member).cases_head with rfl | ⟨next, refers, -⟩
    · exact .head _
    · obtain ⟨binding, listed, rfl⟩ := refers_bound refers
      exact .tail _ (List.mem_map.2 ⟨binding, listed, rfl⟩)
  simpa using (trail.distinct.subperm known).length_le

-- By induction on the steps left: a way that has none left has more names than can be on a trail.
theorem revisits_walk (fuel : Nat) (trail : Trail bindings visited current)
    (enough : bindings.length + 1 < fuel + visited.length) :
    Walk bindings visited current (bindings.revisits? fuel visited current) := by
  induction fuel generalizing visited current with
  | zero =>
    have short := trail_short trail
    omega
  | succ fuel ih =>
    rw [revisits?]
    cases target : bindings.target? current with
    | none => exact .ended (target_none.1 target)
    | some next =>
      have refers := target_iff.1 target
      by_cases known : next ∈ visited
      · simpa [known] using Walk.returned refers known
      · have continued := ih (trail_step trail refers known) (by rw [List.length_cons]; omega)
        simpa [known] using Walk.onward refers known continued

theorem start_walk (bindings : Bindings) (name : String) :
    Walk bindings [name] name (bindings.revisits? (bindings.length + 1) [name] name) :=
  revisits_walk _ (trail_start bindings name) (by simp)

theorem walk_unique {first second : Option String} (walk : Walk bindings visited current first)
    (other : Walk bindings visited current second) : first = second := by
  induction walk with
  | ended unbound =>
    cases other with
    | ended => rfl
    | returned refers | onward refers => exact absurd refers (unbound _)
  | returned refers known =>
    cases other with
    | ended unbound => exact absurd refers (unbound _)
    | returned again => rw [refers_unique refers again]
    | onward again fresh =>
      rw [refers_unique refers again] at known
      exact absurd known fresh
  | onward refers fresh _ ih =>
    cases other with
    | ended unbound => exact absurd refers (unbound _)
    | returned again known =>
      rw [refers_unique refers again] at fresh
      exact absurd known fresh
    | onward again _ rest =>
      rw [← refers_unique refers again] at rest
      exact ih rest

theorem walk_returns (trail : Trail bindings visited current) (walk : Walk bindings visited current (some name)) :
    bindings.OnCircle name := by
  generalize outcome : some name = result at walk
  induction walk with
  | ended => cases outcome
  | returned refers known =>
    cases outcome
    exact .tail' (trail.leads _ known) refers
  | onward refers fresh _ ih => exact ih (trail_step trail refers fresh) outcome

theorem circle_step (circle : bindings.OnCircle current) (refers : bindings.Refers current next) :
    bindings.OnCircle next := by
  obtain ⟨second, first, back⟩ := TransGen.head'_iff.1 circle
  rw [refers_unique first refers] at back
  exact .tail' back refers

theorem walk_ends (walk : Walk bindings visited current none) : ¬bindings.OnCircle current := by
  generalize outcome : none = result at walk
  induction walk with
  | ended unbound =>
    intro circle
    obtain ⟨next, refers, -⟩ := TransGen.head'_iff.1 circle
    exact unbound next refers
  | returned => cases outcome
  | onward refers _ _ ih => exact fun circle => ih outcome (circle_step circle refers)

theorem circle_revisited (circle : bindings.OnCircle name) :
    (bindings.revisits? (bindings.length + 1) [name] name).isSome = true := by
  have walk := start_walk bindings name
  rw [Option.isSome_iff_ne_none]
  intro ended
  rw [ended] at walk
  exact walk_ends walk circle

-- The binding that a fault points at.
theorem circle_bound (circle : bindings.OnCircle name) :
    ∃ binding, bindings.find? (fun binding => binding.1.text = name) = some binding := by
  obtain ⟨next, refers, -⟩ := TransGen.head'_iff.1 circle
  obtain ⟨binding, listed, named⟩ := refers_bound refers
  rw [← Option.isSome_iff_exists, List.find?_isSome]
  exact ⟨binding, listed, by simpa using named⟩

end Bindings

open Bindings

theorem circular_none {bindings : Bindings} (passed : circular? bindings = none) (name : String) :
    ¬bindings.OnCircle name := by
  intro circle
  obtain ⟨binding, found⟩ := circle_bound circle
  have named : binding.1.text = name := by simpa using List.find?_some found
  subst named
  have ended := Option.map_eq_none_iff.1
    (List.findSome?_eq_none_iff.1 passed binding (List.mem_of_find?_eq_some found))
  have revisited := circle_revisited circle
  rw [ended] at revisited
  cases revisited

theorem circular_some {bindings : Bindings} {fault : Fault} (found : circular? bindings = some fault) :
    ∃ name binding, fault = .circular name binding.1.span ∧ bindings.OnCircle name ∧
      bindings.find? (fun binding => binding.1.text = name) = some binding := by
  obtain ⟨start, -, revisited⟩ := List.exists_of_findSome?_eq_some found
  obtain ⟨name, revisits, rfl⟩ := Option.map_eq_some_iff.1 revisited
  have walk := start_walk bindings start.1.text
  rw [revisits] at walk
  have circle := walk_returns (trail_start bindings _) walk
  obtain ⟨binding, first⟩ := circle_bound circle
  exact ⟨name, binding, by simp [first], circle, first⟩

theorem circles_are_found_exactly (bindings : Bindings) :
    (∀ name outcome, bindings.Walk [name] name outcome ↔
      outcome = bindings.revisits? (bindings.length + 1) [name] name) ∧
    ((circular? bindings).isSome = true ↔ ∃ name, bindings.OnCircle name) ∧
    ∀ fault, circular? bindings = some fault → ∃ name binding,
      fault = .circular name binding.1.span ∧ bindings.OnCircle name ∧
      bindings.find? (fun binding => binding.1.text = name) = some binding := by
  refine ⟨?_, ?_, fun fault found => circular_some found⟩
  · intro name outcome
    constructor
    · exact fun walk => walk_unique walk (start_walk bindings name)
    · rintro rfl
      exact start_walk bindings name
  · constructor
    · intro reported
      obtain ⟨fault, found⟩ := Option.isSome_iff_exists.1 reported
      obtain ⟨name, _, -, circle, -⟩ := circular_some found
      exact ⟨name, circle⟩
    · rintro ⟨name, circle⟩
      rw [Option.isSome_iff_ne_none]
      exact fun passed => circular_none passed name circle

-- The circle of b and c is entered from a, and closed only by the second binding of b.
theorem rebound_name_is_on_circle :
    let bindings : Bindings := allIn letBinding (blankOut .code "let a = b\nlet b = t\nlet b = c\nlet c = b".toList)
    circular? bindings = some (.circular "b" ⟨14, 15⟩) ∧ bindings.OnCircle "b" ∧
      bindings.Walk ["a"] "a" (some "b") := by
  intro bindings
  have found : circular? bindings = some (.circular "b" ⟨14, 15⟩) := by decide +kernel
  have revisited : some "b" = bindings.revisits? (bindings.length + 1) ["a"] "a" := by decide +kernel
  obtain ⟨walks, -, faults⟩ := circles_are_found_exactly bindings
  obtain ⟨name, binding, fault, circle, -⟩ := faults _ found
  obtain ⟨rfl, -⟩ := Fault.circular.inj fault
  exact ⟨found, circle, (walks "a" _).2 revisited⟩

end PipeSql.Screen
