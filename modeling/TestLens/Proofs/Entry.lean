import TestLens.Proofs.Trail

namespace TestLens

structure Entry where
  call : Call
  name : String
  group : Option GroupId
  id : Option GroupId
  deriving DecidableEq, Repr

namespace Entry

def lenses (subject : Subject) (e : Entry) : List Lens :=
  Lens.triple subject.path e.name (subject.commands e.call) e.call.extent.location e.group e.id

-- One lens of each kind, all of them with the data of one entry.
structure Shows (subject : Subject) (e : Entry) (lenses : List Lens) : Prop where
  kinds : lenses.map (fun lens => lens.data.kind) = [.test, .testInTerminal, .debug]
  path : ∀ lens ∈ lenses, lens.arguments.path = subject.path
  name : ∀ lens ∈ lenses, lens.arguments.name = e.name
  location : ∀ lens ∈ lenses, lens.arguments.location = e.call.extent.location
  range : ∀ lens ∈ lenses, lens.range = e.call.extent.location.range
  group : ∀ lens ∈ lenses, lens.data.group = e.group
  id : ∀ lens ∈ lenses, lens.data.id = e.id

theorem lenses_shows (subject : Subject) (e : Entry) : e.Shows subject (e.lenses subject) := by
  refine ⟨rfl, ?_, ?_, ?_, ?_, ?_, ?_⟩ <;>
    exact List.forall_mem_map.mpr fun _ _ => rfl

end Entry

namespace Step

def emitted? : Step → Option Call
  | .enter call => if call.emits then some call else none
  | .leave _ => none

theorem emitted?_eq_some_iff {step : Step} {call : Call} :
    step.emitted? = some call ↔ step = .enter call ∧ call.emits := by
  cases step
  case leave => simp [emitted?]
  case enter =>
    simp only [emitted?, Option.ite_none_right_eq_some, Option.some.injEq, enter.injEq]
    constructor
    case mp => exact fun ⟨he, h⟩ => ⟨h, h ▸ he⟩
    case mpr => exact fun ⟨h, he⟩ => ⟨h ▸ he, h⟩

end Step

namespace Trail

variable {t : Trail} {steps : List Step}

def entry (t : Trail) (call : Call) : Entry where
  call := call
  name := t.naming call
  group := t.current
  id := t.opening call

def entries (t : Trail) : List Step → List Entry
  | [] => []
  | step :: steps => (step.emitted?.map t.entry).toList ++ (t.took step).entries steps

theorem entries_append (t : Trail) (steps more : List Step) :
    t.entries (steps ++ more) = t.entries steps ++ (t.ran steps).entries more := by
  induction steps generalizing t
  case nil => rfl
  case cons step steps hi => simp [entries, hi, ran_cons]

theorem entries_calls (t : Trail) (steps : List Step) :
    (t.entries steps).map Entry.call = steps.filterMap Step.emitted? := by
  induction steps generalizing t
  case nil => rfl
  case cons step steps hi =>
    rw [entries, List.map_append, hi, List.filterMap_cons]
    cases step.emitted? <;> rfl

-- Every entry stands for an enter, and the entries before it are those of the steps before.
theorem entries_split {before after : List Entry} {e : Entry}
    (h : t.entries steps = before ++ e :: after) :
    ∃ first call last, steps = first ++ .enter call :: last ∧ call.emits ∧
      before = t.entries first ∧ e = (t.ran first).entry call := by
  induction steps generalizing t before
  case nil => simp [entries] at h
  case cons step steps hi =>
    have later {before : List Entry} (hs : (t.took step).entries steps = before ++ e :: after) :
        ∃ first call last, step :: steps = first ++ .enter call :: last ∧ call.emits ∧
          (step.emitted?.map t.entry).toList ++ before = t.entries first ∧
          e = (t.ran first).entry call := by
      have ⟨first, call, last, hsteps, he, hb, hentry⟩ := hi hs
      exact ⟨step :: first, call, last, by simp [hsteps], he, by simp [entries, hb], hentry⟩
    rw [entries] at h
    cases hc : step.emitted?
    case none =>
      rw [hc] at h later
      exact later h
    case some call =>
      rw [hc] at h later
      cases before
      case nil =>
        have he := Step.emitted?_eq_some_iff.mp hc
        have hh := (List.cons.inj h).left
        exact ⟨[], call, steps, by simp [he.left], he.right, rfl, hh.symm⟩
      case cons b before =>
        have ⟨hb, ht⟩ := List.cons.inj h
        exact hb ▸ later ht

-- The groups are numbered one after another, in the order in which they are entered.
theorem entries_ids (hr : t.Room steps) :
    ((t.entries steps).filterMap Entry.id).map (fun id => id.val.toNat) =
      List.range' t.nextId.val.toNat (steps.countP Step.opensGroup) := by
  induction steps generalizing t
  case nil => rfl
  case cons step steps hi =>
    cases step
    case leave call =>
      have hi := hi (room_leave_iff.mp hr)
      rw [leave_nextId] at hi
      exact hi
    case enter call =>
      have ⟨hf, hr⟩ := room_enter_iff.mp hr
      have hi := hi hr
      rw [entered_nextId hf] at hi
      rw [entries, took, List.countP_cons, Step.emitted?, Step.opensGroup]
      cases ho : call.opensGroup
      case false =>
        rw [ho] at hi
        cases call.emits <;> simpa [entry, opening, ho] using hi
      case true =>
        have he : call.emits := by simp [Call.emits, ho]
        rw [if_pos ho] at hi
        rw [if_pos rfl, List.range'_succ, ← hi]
        simp [he, entry, opening, ho]

end Trail

namespace Collector

theorem lenses_finding (subject : Subject) (t : Trail) (call : Call) :
    subject.lenses call (t.finding call) =
      (((Step.enter call).emitted?.map t.entry).toList).flatMap (Entry.lenses subject) := by
  rw [Trail.finding, Step.emitted?]
  cases call.emits
  case true => simp [Subject.lenses, Entry.lenses, Trail.entry]
  case false =>
    by_cases hr : call.role = .group
    case pos => simp [Subject.lenses, hr]
    case neg => simp [Subject.lenses, hr]

theorem ran_lenses (c : Collector) (steps : List Step) :
    (c.ran steps).lenses.toList =
      c.lenses.toList ++ (c.trail.entries steps).flatMap (Entry.lenses c.subject) := by
  induction steps generalizing c
  case nil => simp [ran, Trail.entries]
  case cons step steps hi =>
    rw [ran_cons, hi, Trail.entries, List.flatMap_append, ← List.append_assoc]
    cases step
    case enter call =>
      rw [← lenses_finding, took, Array.toList_appendList]
      rfl
    case leave call => simp [took, leave, Step.emitted?, Trail.took]

end Collector

end TestLens
