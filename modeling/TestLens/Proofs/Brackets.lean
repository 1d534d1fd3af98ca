import TestLens.Proofs.Matching

namespace TestLens

def Call.isAmong (methods : List String) (call : Call) : Bool :=
  call.method ∈ methods

namespace Step

variable {steps : List Step} {methods : List String}

-- Every call is left after everything inside of it, and nothing else is left.
inductive Bracketed : List Step → Prop
  | nil : Bracketed []
  | call (call : Call) {inner rest : List Step} (hi : Bracketed inner) (hr : Bracketed rest) :
    Bracketed (.enter call :: (inner ++ .leave call :: rest))

theorem Bracketed.append {more : List Step} (h : Bracketed steps) (hm : Bracketed more) :
    Bracketed (steps ++ more) := by
  induction h
  case nil => exact hm
  case call call inner rest hi _ _ hr => simpa using Bracketed.call call hi hr

-- The calls that are open after some steps, innermost first, when `outer` were open before.
def opened (outer : List Call) : List Step → List Call
  | [] => outer
  | .enter call :: steps => opened (call :: outer) steps
  | .leave _ :: steps => opened outer.tail steps

theorem opened_append (outer : List Call) (steps more : List Step) :
    opened outer (steps ++ more) = opened (opened outer steps) more := by
  induction steps generalizing outer
  case nil => rfl
  case cons step steps hi => cases step <;> exact hi _

theorem Bracketed.opened_eq (h : Bracketed steps) (outer : List Call) :
    opened outer steps = outer := by
  induction h generalizing outer
  case nil => rfl
  case call call inner rest _ _ hi hr => rw [opened, opened_append, hi, opened, List.tail_cons, hr]

theorem map_unmatched (steps : List Step) :
    (unmatched steps).map (fun i => steps[i]?) =
      (opened [] steps).map fun call => some (.enter call) := by
  have earlier (steps : List Step) (step : Step) :
      (unmatched steps).map (fun i => (steps ++ [step])[i]?) =
        (unmatched steps).map fun i => steps[i]? :=
    List.map_congr_left fun _ h => List.getElem?_append_left (lt_length_of_mem_unmatched h)
  induction steps using List.reverseRecOn
  case nil => rfl
  case append_singleton steps step hi =>
    rw [opened_append]
    cases step
    case enter call =>
      rw [unmatched_enter, List.map_cons, earlier, hi, List.getElem?_concat_length]
      rfl
    case leave call =>
      rw [unmatched_leave, List.map_tail, earlier, hi, ← List.map_tail]
      rfl

theorem Bracketed.unmatched_eq (h : Bracketed steps) : unmatched steps = [] := by
  have hm := map_unmatched steps
  rw [h.opened_eq] at hm
  exact List.map_eq_nil_iff.mp hm

def isLeave : Step → Bool
  | .enter _ => false
  | .leave _ => true

def enters (methods : List String) (step : Step) : Bool :=
  step.entered?.any (Call.isAmong methods)

-- The leave at position `j` closes the call that is entered at position `i`.
def Closes (steps : List Step) (i j : Nat) : Prop :=
  steps[j]?.any isLeave ∧ (unmatched (steps.take j)).head? = some i

instance (i j : Nat) : Decidable (Closes steps i j) :=
  inferInstanceAs (Decidable (_ ∧ _))

-- Position `k` lies strictly between the enter of a call of one of the methods and the leave that
-- closes this call.
def Enclosed (methods : List String) (steps : List Step) (k : Nat) : Prop :=
  ∃ i < k, ∃ j < steps.length, k < j ∧ Closes steps i j ∧ steps[i]?.any (enters methods)

instance (k : Nat) : Decidable (Enclosed methods steps k) :=
  inferInstanceAs (Decidable (∃ i, i < k ∧ ∃ j, j < steps.length ∧ _))

def outside (methods : List String) (steps : List Step) : List Step :=
  (steps.zipIdx.filter fun (_, k) => ¬ Enclosed methods steps k).map Prod.fst

theorem mem_unmatched_of_append {i : Nat} {more : List Step} (h : i ∈ unmatched (steps ++ more))
    (hi : i < steps.length) : i ∈ unmatched steps := by
  induction more using List.reverseRecOn
  case nil => simpa using h
  case append_singleton more step ih =>
    rw [← List.append_assoc] at h
    cases step
    case enter call =>
      rw [unmatched_enter] at h
      cases List.mem_cons.mp h
      case inl h =>
        rw [List.length_append] at h
        omega
      case inr h => exact ih h
    case leave call =>
      rw [unmatched_leave] at h
      exact ih (List.mem_of_mem_tail h)

theorem Closes.mem_unmatched {i j k : Nat} (h : Closes steps i j) (hi : i < k) (hk : k ≤ j)
    (hj : j < steps.length) : i ∈ unmatched (steps.take k) := by
  have hm := List.mem_of_head? h.right
  have ht := List.take_append_drop k (steps.take j)
  rw [List.take_take, Nat.min_eq_left hk] at ht
  rw [← ht] at hm
  apply mem_unmatched_of_append hm
  rw [List.length_take]
  omega

-- An enter that is open now and not open in the end is closed on the way.
theorem exists_closes {i : Nat} (h : i ∈ unmatched steps) (more : List Step)
    (hn : i ∉ unmatched (steps ++ more)) :
    ∃ j, steps.length ≤ j ∧ j < (steps ++ more).length ∧ Closes (steps ++ more) i j := by
  induction more generalizing steps
  case nil => simp [h] at hn
  case cons step more ih =>
    have hs : steps ++ step :: more = (steps ++ [step]) ++ more := by simp
    by_cases hm : i ∈ unmatched (steps ++ [step])
    case pos =>
      rw [hs] at hn ⊢
      have ⟨j, hj, hl, hc⟩ := ih hm hn
      rw [List.length_append] at hj
      exact ⟨j, by omega, hl, hc⟩
    case neg =>
      cases step
      case enter call =>
        rw [unmatched_enter] at hm
        exact absurd (List.mem_cons_of_mem _ h) hm
      case leave call =>
        rw [unmatched_leave] at hm
        refine ⟨steps.length, Nat.le_refl _, by simp, by simp [isLeave], ?_⟩
        rw [List.take_left]
        cases hu : unmatched steps
        case nil => simp [hu] at h
        case cons k ks =>
          rw [hu] at h hm
          cases List.mem_cons.mp h
          case inl h => rw [h, List.head?_cons]
          case inr h => exact absurd h hm

theorem enclosed_iff {before after : List Step} {step : Step}
    (h : unmatched (before ++ step :: after) = []) :
    Enclosed methods (before ++ step :: after) before.length ↔
      ∃ i ∈ unmatched before, i ∈ unmatched (before ++ [step]) ∧
        before[i]?.any (enters methods) := by
  -- Whether a step is enclosed can be told from the enters that are open both before and after it.
  have ht : (before ++ step :: after).take (before.length + 1) = before ++ [step] := by
    rw [List.take_length_add_append]
    rfl
  constructor
  case mp =>
    intro ⟨i, hi, j, hj, hk, hc, he⟩
    rw [List.getElem?_append_left hi] at he
    refine ⟨i, ?_, ?_, he⟩
    case refine_1 => simpa using hc.mem_unmatched hi (Nat.le_of_lt hk) hj
    case refine_2 => exact ht ▸ hc.mem_unmatched (Nat.lt_succ_of_lt hi) hk hj
  case mpr =>
    intro ⟨i, hb, ha, he⟩
    have hi := lt_length_of_mem_unmatched hb
    have hs : before ++ step :: after = (before ++ [step]) ++ after := by simp
    have ⟨j, hj, hl, hc⟩ := exists_closes ha after (by simp [← hs, h])
    rw [← hs] at hl hc
    rw [List.length_append, List.length_singleton] at hj
    exact ⟨i, hi, j, hl, hj, hc, by rwa [List.getElem?_append_left hi]⟩

theorem exists_enters_iff {positions : List Nat} {calls : List Call}
    (h : positions.map (fun i => steps[i]?) = calls.map fun call => some (.enter call)) :
    (∃ i ∈ positions, steps[i]?.any (enters methods)) ↔ calls.any (Call.isAmong methods) := by
  calc (∃ i ∈ positions, steps[i]?.any (enters methods))
    _ ↔ (positions.map fun i => steps[i]?).any fun step => step.any (enters methods) := by simp
    _ ↔ calls.any (Call.isAmong methods) := by rw [h, List.any_map]; rfl

theorem enclosed_enter_iff {before after : List Step} {call : Call}
    (h : unmatched (before ++ .enter call :: after) = []) :
    Enclosed methods (before ++ .enter call :: after) before.length ↔
      (opened [] before).any (Call.isAmong methods) := by
  rw [enclosed_iff h, unmatched_enter, ← exists_enters_iff (map_unmatched before)]
  constructor
  case mp => exact fun ⟨i, hi, _, he⟩ => ⟨i, hi, he⟩
  case mpr => exact fun ⟨i, hi, he⟩ => ⟨i, hi, List.mem_cons_of_mem _ hi, he⟩

theorem enclosed_leave_iff {before after : List Step} {call : Call}
    (h : unmatched (before ++ .leave call :: after) = []) :
    Enclosed methods (before ++ .leave call :: after) before.length ↔
      (opened [] before).tail.any (Call.isAmong methods) := by
  have ht : (unmatched before).tail.map (fun i => before[i]?) =
      (opened [] before).tail.map fun call => some (.enter call) := by
    rw [List.map_tail, map_unmatched, List.map_tail]
  rw [enclosed_iff h, unmatched_leave, ← exists_enters_iff ht]
  constructor
  case mp => exact fun ⟨i, _, hi, he⟩ => ⟨i, hi, he⟩
  case mpr => exact fun ⟨i, hi, he⟩ => ⟨i, List.mem_of_mem_tail hi, hi, he⟩

-- The steps outside of the calls of some methods, in one pass. `outer` are the calls that are open;
-- a leave is inside of all of them but the one that it closes.
def sift (methods : List String) (outer : List Call) : List Step → List Step
  | [] => []
  | .enter call :: steps =>
    let rest := sift methods (call :: outer) steps
    if outer.any (Call.isAmong methods) then rest else .enter call :: rest
  | .leave call :: steps =>
    let rest := sift methods outer.tail steps
    if outer.tail.any (Call.isAmong methods) then rest else .leave call :: rest

-- The pass over what is left of the steps, with the calls that are open by then.
theorem filter_eq_sift (before after : List Step) (h : unmatched (before ++ after) = []) :
    ((after.zipIdx before.length).filter
        fun (_, k) => ¬ Enclosed methods (before ++ after) k).map Prod.fst =
      sift methods (opened [] before) after := by
  induction after generalizing before
  case nil => rfl
  case cons step after hi =>
    have hs : before ++ step :: after = (before ++ [step]) ++ after := by simp
    have hi := hi (before ++ [step]) (hs ▸ h)
    rw [← hs, opened_append, List.length_append, List.length_singleton] at hi
    rw [List.zipIdx_cons, List.filter_cons]
    cases step
    case enter call =>
      rw [opened, opened] at hi
      simp only [enclosed_enter_iff h, sift, ← hi]
      cases (opened [] before).any (Call.isAmong methods) <;> rfl
    case leave call =>
      rw [opened, opened] at hi
      simp only [enclosed_leave_iff h, sift, ← hi]
      cases (opened [] before).tail.any (Call.isAmong methods) <;> rfl

theorem outside_eq_sift (h : unmatched steps = []) :
    outside methods steps = sift methods [] steps :=
  filter_eq_sift [] steps h

end Step

end TestLens
