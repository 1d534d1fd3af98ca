import TestLens.Proofs.Recursion
import TestLens.Proofs.Trail

universe v

namespace TestLens.Document

variable {d : Document} {n : Node} {call : Call}

-- The steps of a node: those of its children, between the enter and the leave of its own call.
def events (d : Document) : Node → List Step
  | n@⟨_, _, _, _, _, _, children⟩ =>
    match d.call? n with
    | none => eventsAll children
    | some call => .enter call :: (eventsAll children ++ [.leave call])
where
  eventsAll : List Node → List Step
    | [] => []
    | c :: cs => d.events c ++ eventsAll cs

theorem events_eq_eventsAll (hc : d.call? n = none) :
    d.events n = events.eventsAll d n.children := by
  cases n
  rw [events, hc]

theorem events_of_call (hc : d.call? n = some call) :
    d.events n = .enter call :: (events.eventsAll d n.children ++ [.leave call]) := by
  cases n
  rw [events, hc]

end TestLens.Document

namespace TestLens.Trail

theorem leave_entered {t u : Trail} {call : Call} (hf : u.frames = (t.entered call).frames)
    (hg : u.groups = (t.entered call).groups) :
    u.leave.frames = t.frames ∧ u.leave.groups = t.groups := by
  refine ⟨by rw [leave_frames, hf]; rfl, ?_⟩
  cases ho : call.opensGroup <;> simp [leave, hf, hg, entered, opening, ho]

theorem ran_events (d : Document) (n : Node) (t : Trail) :
    (t.ran (d.events n)).frames = t.frames ∧ (t.ran (d.events n)).groups = t.groups := by
  induction n using Node.induction (fun ns => ∀ t : Trail,
    (t.ran (Document.events.eventsAll d ns)).frames = t.frames ∧
      (t.ran (Document.events.eventsAll d ns)).groups = t.groups) generalizing t
  case node n hi =>
    cases hc : d.call? n
    case none =>
      rw [Document.events_eq_eventsAll hc]
      exact hi t
    case some call =>
      have ⟨hf, hg⟩ := hi (t.entered call)
      rw [Document.events_of_call hc, ran_cons, ran_append]
      exact leave_entered hf hg
  case nil => exact ⟨rfl, rfl⟩
  case cons n ns hn hi t =>
    have ⟨hf, hg⟩ := hn t
    have ⟨hfs, hgs⟩ := hi (t.ran (d.events n))
    rw [Document.events.eventsAll, ran_append]
    exact ⟨hfs.trans hf, hgs.trans hg⟩

end TestLens.Trail

namespace TestLens.Collector

theorem steps_append (c : Collector) (steps more : List Step) :
    c.steps (steps ++ more) = (c.steps steps).bind fun c => c.steps more := by
  simp [Collector.steps, List.foldlM_append]

-- How a walk ends that collects lenses: it is stopped when a counter cannot count any further.
def ending : Option Collector → Option Collector × Ending
  | some c => (some c, .finished)
  | none => (none, .stopped)

theorem ending_fst (c : Option Collector) : (ending c).1 = c := by
  cases c <;> rfl

theorem enter_collector (c : Collector) (call : Call) :
    Visitor.collector.enter (some c) call =
      match c.enter call with
      | some c => (some c, .proceed)
      | none => (none, .stop) :=
  rfl

theorem visit_collector (d : Document) (n : Node) (c : Collector) :
    Walk.visit d .collector (some c) n = ending (c.steps (d.events n)) := by
  induction n using Node.induction (fun ns => ∀ c : Collector,
    Walk.visit.visitAll d .collector (some c) ns =
      ending (c.steps (Document.events.eventsAll d ns))) generalizing c
  case node n hi =>
    cases hc : d.call? n
    case none => rw [Walk.visit_eq_visitAll hc, Document.events_eq_eventsAll hc, hi]
    case some call =>
      rw [Walk.visit_of_call hc, Document.events_of_call hc, enter_collector]
      cases he : c.enter call
      case none => simp [Collector.steps, Collector.step, he, ending]
      case some c' =>
        have hs : c.steps (.enter call :: (Document.events.eventsAll d n.children ++
            [.leave call])) =
            (c'.steps (Document.events.eventsAll d n.children)).bind fun c => some c.leave := by
          simp [Collector.steps, Collector.step, he]
        simp only [hs, hi]
        cases c'.steps (Document.events.eventsAll d n.children) <;> rfl
  case nil => rfl
  case cons n ns hn hi c =>
    rw [Walk.visit.visitAll, Document.events.eventsAll, steps_append, hn]
    cases c.steps (d.events n)
    case none => rfl
    case some c => exact hi c

end TestLens.Collector

namespace TestLens.Document

theorem walkBy_collector {ι : Type v} [DecidableEq ι] {key : Address → ι} (d : Document)
    (c : Collector) (hk : (d.root.addresses.map key).Nodup) :
    d.walkBy key .collector d.root (some c) = Collector.ending (c.steps (d.events d.root)) := by
  rw [walkBy_eq_visit d .collector (some c) hk, Collector.visit_collector]

theorem collect_eq_steps (d : Document) (subject : Subject) (sink : Array Lens) :
    d.collect subject sink = (Collector.start subject sink).steps (d.events d.root) := by
  rw [collect, walk, walkFrom_eq_visit, Collector.visit_collector, Collector.ending_fst]

end TestLens.Document
