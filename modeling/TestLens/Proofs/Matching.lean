import Mathlib.Data.List.Induction
import TestLens.Proofs.Trail

namespace TestLens.Step

variable {steps : List Step} {call : Call}

-- The positions of the enters that no leave has closed, latest first. A leave closes the latest
-- call that is still open, and is dropped when there is none.
def unmatched (steps : List Step) : List Nat :=
  steps.zipIdx.foldl next []
where
  next (positions : List Nat) : Step × Nat → List Nat
    | (.enter _, i) => i :: positions
    | (.leave _, _) => positions.tail

theorem unmatched_enter (steps : List Step) (call : Call) :
    unmatched (steps ++ [.enter call]) = steps.length :: unmatched steps := by
  simp [unmatched, List.zipIdx_append, unmatched.next]

theorem unmatched_leave (steps : List Step) (call : Call) :
    unmatched (steps ++ [.leave call]) = (unmatched steps).tail := by
  simp [unmatched, List.zipIdx_append, unmatched.next]

theorem lt_length_of_mem_unmatched {i : Nat} (h : i ∈ unmatched steps) : i < steps.length := by
  induction steps using List.reverseRecOn
  case nil => simp [unmatched] at h
  case append_singleton steps step hi =>
    rw [List.length_append, List.length_singleton]
    cases step
    case enter call =>
      rw [unmatched_enter] at h
      cases List.mem_cons.mp h
      case inl h => omega
      case inr h => exact Nat.lt_succ_of_lt (hi h)
    case leave call =>
      rw [unmatched_leave] at h
      exact Nat.lt_succ_of_lt (hi (List.mem_of_mem_tail h))

-- The group that is opened by the step at a position: it is numbered by the groups opened before.
def openedAt (steps : List Step) (i : Nat) : Option GroupId :=
  if steps[i]?.any opensGroup then some (.after ((steps.take i).countP opensGroup)) else none

theorem openedAt_of_lt {i : Nat} (h : i < steps.length) (more : List Step) :
    openedAt (steps ++ more) i = openedAt steps i := by
  rw [openedAt, openedAt, List.getElem?_append_left h, List.take_append_of_le_length (by omega)]

theorem openedAt_length (steps : List Step) (step : Step) :
    openedAt (steps ++ [step]) steps.length =
      if step.opensGroup then some (.after (steps.countP opensGroup)) else none := by
  simp [openedAt]

-- Steps that come later do not renumber what is open already.
theorem map_openedAt_unmatched (steps more : List Step) :
    (unmatched steps).map (openedAt (steps ++ more)) = (unmatched steps).map (openedAt steps) :=
  List.map_congr_left fun _ h => openedAt_of_lt (lt_length_of_mem_unmatched h) more

-- Steps of no tree: the first one leaves a call that was never entered, and three calls stay open.
def ragged : List Step :=
  [.leave (bare .other false), .enter (bare .group true), .enter (bare .group true),
   .enter (bare .single false), .leave (bare .group true), .leave (bare .group true),
   .enter (bare .group false), .enter (bare .group true)]
where
  bare (role : Role) (block : Bool) : Call :=
    ⟨"m", role, none, none, 0, block, ⟨1, 0, 1, 1⟩⟩

example : unmatched ragged = [7, 6, 1] := by decide

example : (unmatched ragged).map (openedAt ragged) = [some ⟨3⟩, none, some ⟨1⟩] := by decide

end TestLens.Step

namespace TestLens.Trail

variable {steps : List Step}

theorem ran_nextId (hr : start.Room steps) :
    (start.ran steps).nextId = .after (steps.countP Step.opensGroup) :=
  GroupId.eq_after (ran_counters hr).left

theorem ran_frames (hr : start.Room steps) :
    (start.ran steps).frames = (Step.unmatched steps).map (Step.openedAt steps) := by
  induction steps using List.reverseRecOn
  case nil => rfl
  case append_singleton steps step hi =>
    have hi := hi hr.left
    rw [ran_append]
    cases step
    case enter call =>
      have ho : (start.ran steps).opening call =
          Step.openedAt (steps ++ [.enter call]) steps.length := by
        rw [Step.openedAt_length, opening, ran_nextId hr.left]
        rfl
      rw [Step.unmatched_enter, List.map_cons, Step.map_openedAt_unmatched, ← hi, ← ho]
      rfl
    case leave call =>
      rw [Step.unmatched_leave, List.map_tail, Step.map_openedAt_unmatched, ← hi]
      exact leave_frames _

-- What is known of a trail after some steps. The list of open groups and the list of open calls are
-- two views of one stack.
structure Represents (t : Trail) (steps : List Step) : Prop where
  stack_eq_frames : t.stack = t.frames.reverse.filterMap id
  increasing : t.stack.Pairwise (· < ·)
  bounds : ∀ id ∈ t.stack, GroupId.first ≤ id ∧ id < t.nextId
  -- The subtraction in `allocated` does not wrap.
  first_le : GroupId.first.val ≤ t.nextId.val
  allocated_eq : t.allocated.toNat = steps.countP Step.opensGroup
  -- Leaving a call that opened a group takes that very group off the stack.
  closes_top : ∀ id, t.frames.head? = some (some id) → t.stack.getLast? = some id
  stack_eq_unmatched :
    t.stack = (Step.unmatched steps).reverse.filterMap (Step.openedAt steps)

theorem ran_represents (hr : start.Room steps) : (start.ran steps).Represents steps := by
  have hc := Coherent.start.ran hr
  have hf := ran_frames hr
  constructor
  case stack_eq_frames => rw [stack, hc.groups_eq, List.filterMap_reverse]
  case increasing => exact List.pairwise_reverse.mpr hc.descending
  case bounds =>
    intro id h
    have hm := List.mem_reverse.mp h
    exact ⟨hc.first_le id hm, hc.lt_nextId id hm⟩
  case first_le => exact hc.first_le_nextId
  case allocated_eq =>
    have hn : (start.ran steps).nextId.val.toNat = 1 + steps.countP Step.opensGroup :=
      (ran_counters hr).left
    rw [allocated, UInt32.toNat_sub_of_le _ _ hc.first_le_nextId, hn]
    exact Nat.add_sub_cancel_left ..
  case closes_top =>
    intro id h
    rw [stack, List.getLast?_reverse]
    exact hc.current_eq h
  case stack_eq_unmatched =>
    rw [stack, hc.groups_eq, hf, List.filterMap_map, ← List.filterMap_reverse]
    rfl

end TestLens.Trail

namespace TestLens.Collector

-- Every order of steps is allowed, and so are calls whose role contradicts their method.
theorem steps_represents (subject : Subject) (sink : Array Lens) (steps : List Step)
    (hg : steps.countP Step.opensGroup ≤ 2 ^ 32 - 2)
    (hu : steps.countP Step.isUnnamed ≤ 2 ^ 32 - 1) :
    ∃ c, (start subject sink).steps steps = some c ∧ c.trail.Represents steps := by
  have hr := Trail.room_start hg hu
  refine ⟨(start subject sink).ran steps, steps_eq_some_iff.mpr ⟨hr, rfl⟩, ?_⟩
  rw [ran_trail]
  exact Trail.ran_represents hr

theorem ragged_represents :
    ∃ c, (start ⟨"a_spec.rb", .probed true false, false⟩ #[]).steps Step.ragged = some c ∧
      c.trail.stack = [⟨1⟩, ⟨3⟩] ∧ c.trail.allocated.toNat = 3 := by
  have ⟨c, hs, hr⟩ := steps_represents ⟨"a_spec.rb", .probed true false, false⟩ #[] Step.ragged
    (by decide) (by decide)
  exact ⟨c, hs, hr.stack_eq_unmatched.trans (by decide), hr.allocated_eq.trans (by decide)⟩

end TestLens.Collector
