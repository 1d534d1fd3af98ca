import TestLens.Proofs.Outline
import TestLens.Proofs.Search
import TestLens.Proofs.Traces

universe u v

namespace TestLens

def Visitor.take {σ : Type u} (visitor : Visitor σ) (s : σ) : Step → σ
  | .enter call => (visitor.enter s call).1
  | .leave call => visitor.leave s call

-- A visitor that lets every walk go on.
def Visitor.Proceeds {σ : Type u} (visitor : Visitor σ) : Prop :=
  ∀ s call, (visitor.enter s call).2 = .proceed

def Step.inside (call : Option Call) (steps : List Step) : List Step :=
  call.toList.map .enter ++ (steps ++ call.toList.map .leave)

theorem Node.below_append (a : Address) (i : Nat) (left right : List Node) :
    addressesFrom.below a i (left ++ right) =
      addressesFrom.below a i left ++ addressesFrom.below a (i + left.length) right := by
  induction left generalizing i
  case nil => rfl
  case cons n left hi =>
    simp only [List.cons_append, addressesFrom.below, hi, List.length_cons, List.append_assoc,
      Nat.add_assoc, Nat.add_comm 1]

namespace Document

variable {d : Document} {n : Node} {a : Address}

theorem eventsAll_eq_flatMap (d : Document) (ns : List Node) :
    events.eventsAll d ns = ns.flatMap d.events := by
  induction ns
  case nil => rfl
  case cons n ns hi => exact congrArg (d.events n ++ ·) hi

theorem events_eq_inside (d : Document) (n : Node) :
    d.events n = Step.inside (d.call? n) (n.children.flatMap d.events) := by
  rw [← eventsAll_eq_flatMap]
  cases hc : d.call? n
  case none =>
    rw [events_eq_eventsAll hc]
    exact (List.append_nil _).symm
  case some call => exact events_of_call hc

theorem trace_eq_events (d : Document) (n : Node) : d.trace [] [] n = (d.events n, .finished) := by
  rw [trace_eq_cut, Step.cut_nil, eventsOutside_nil]

theorem flatMap_events_bracketed (d : Document) (ns : List Node) :
    Step.Bracketed (ns.flatMap d.events) := by
  induction ns
  case nil => exact .nil
  case cons n ns hi => exact (events_bracketed n).append hi

section Proceeding

variable {σ : Type u} {visitor : Visitor σ}

-- A visitor that always lets the walk go on is told of every step.
theorem visit_proceeding (hv : visitor.Proceeds) (n : Node) (s : σ) :
    Walk.visit d visitor s n = ((d.events n).foldl visitor.take s, .finished) := by
  induction n using Node.induction (fun ns => ∀ s, Walk.visit.visitAll d visitor s ns =
    ((events.eventsAll d ns).foldl visitor.take s, .finished)) generalizing s
  case node n hi =>
    cases hc : d.call? n
    case none => rw [Walk.visit_eq_visitAll hc, events_eq_eventsAll hc, hi]
    case some call =>
      rw [Walk.visit_of_call hc, events_of_call hc, List.foldl_cons, List.foldl_append]
      have he : visitor.enter s call = (visitor.take s (.enter call), .proceed) :=
        Prod.ext rfl (hv s call)
      simp only [he, hi]
      rfl
  case nil => rfl
  case cons n ns hn hi s =>
    rw [Walk.visit.visitAll, events.eventsAll, List.foldl_append, hn]
    exact hi _

end Proceeding

theorem siblings_calls {parent : Node} {ns : List Node} {i : Nat} (hp : d.root.at? a = some parent)
    (hd : parent.children.drop i = ns) :
    (ns.flatMap d.events).filterMap Step.entered? =
      (d.sitesAt (Node.addressesFrom.below a i ns)).map Site.call := by
  induction ns generalizing i
  case nil => rfl
  case cons n ns hi =>
    obtain ⟨hn, hd⟩ := Node.at?_sibling hp hd
    rw [List.flatMap_cons, List.filterMap_append, events_calls hn, hi hd,
      Node.addressesFrom.below, sitesAt_append, List.map_append]

theorem left_siblings_calls {parent : Node} {left right : List Node}
    (hp : d.root.at? a = some parent) (hs : parent.children = left ++ right) :
    (left.flatMap d.events).filterMap Step.entered? =
      (d.sitesAt (Node.addressesFrom.below a 0 left)).map Site.call := by
  have hr := siblings_calls (i := left.length) hp (by rw [hs, List.drop_left])
  have hall := siblings_calls (i := 0) hp rfl
  rw [List.drop_zero, hs, Node.below_append, Nat.zero_add, List.flatMap_append,
    List.filterMap_append, hr, sitesAt_append, List.map_append] at hall
  exact List.append_cancel_right hall

-- How the walk over the document passes a node. What it has entered before are the calls that come
-- earlier in the document, and those of them that it has not left yet are the calls above the node.
structure Segment (d : Document) (a : Address) (n : Node) (before after : List Step)
    (earlier later : List Site) : Prop where
  trace_eq : (d.trace [] [] d.root).1 = before ++ ((d.trace [] [] n).1 ++ after)
  sites_eq : d.sites = earlier ++ (d.sitesAt (n.addressesFrom a) ++ later)
  entered_before : before.filterMap Step.entered? = earlier.map Site.call
  entered_inside :
    (d.trace [] [] n).1.filterMap Step.entered? = (d.sitesAt (n.addressesFrom a)).map Site.call
  entered_after : after.filterMap Step.entered? = later.map Site.call
  opened_before : Step.opened [] before = d.above d.root a

namespace Segment

theorem root (d : Document) : d.Segment [] d.root [] [] [] [] where
  trace_eq := (List.append_nil _).symm
  sites_eq := (List.append_nil _).symm
  entered_before := rfl
  entered_inside := by
    rw [trace_eq_events]
    exact events_calls rfl
  entered_after := rfl
  opened_before := rfl

theorem child {parent : Node} {left right : List Node} {before after : List Step}
    {earlier later : List Site} (h : d.Segment a parent before after earlier later)
    (hp : d.root.at? a = some parent) (hs : parent.children = left ++ n :: right) :
    d.Segment (left.length :: a) n
      (before ++ ((d.call? parent).toList.map .enter ++ left.flatMap d.events))
      (right.flatMap d.events ++ ((d.call? parent).toList.map .leave ++ after))
      (earlier ++ (((d.call? parent).map (Site.mk a)).toList ++
        d.sitesAt (Node.addressesFrom.below a 0 left)))
      (d.sitesAt (Node.addressesFrom.below a (left.length + 1) right) ++ later) := by
  -- On its way to a child, the walk enters the call of the parent and passes the children before.
  have hn : d.root.at? (left.length :: a) = some n := by simp [Node.at?_child hp, hs]
  have hl := left_siblings_calls hp hs
  have hd : parent.children.drop (left.length + 1) = right := by simp [hs]
  have hr := siblings_calls hp hd
  constructor
  case trace_eq =>
    have ht := h.trace_eq
    rw [trace_eq_events d parent, events_eq_inside, Step.inside, hs] at ht
    simpa [trace_eq_events d n] using ht
  case sites_eq =>
    have ht := h.sites_eq
    rw [sitesAt_node hp, hs, Node.below_append, Node.addressesFrom.below, sitesAt_append,
      sitesAt_append] at ht
    simpa using ht
  case entered_before =>
    rw [List.filterMap_append, List.filterMap_append, h.entered_before, hl]
    cases d.call? parent <;> simp [Step.entered?]
  case entered_inside =>
    rw [trace_eq_events]
    exact events_calls hn
  case entered_after =>
    rw [List.filterMap_append, List.filterMap_append, h.entered_after, hr]
    cases d.call? parent <;> simp [Step.entered?]
  case opened_before =>
    rw [Step.opened_append, Step.opened_append, h.opened_before,
      (d.flatMap_events_bracketed left).opened_eq, above, way_eq, callBelow_eq hp]
    cases d.call? parent <;> rfl

end Segment

theorem exists_segment (hn : d.root.at? a = some n) :
    ∃ before after earlier later, d.Segment a n before after earlier later := by
  induction a generalizing n
  case nil =>
    cases hn
    exact ⟨_, _, _, _, .root d⟩
  case cons i a hi =>
    have ⟨parent, hp, hc⟩ := Option.bind_eq_some_iff.mp hn
    have ⟨_, _, _, _, h⟩ := hi hp
    have ⟨hlt, hget⟩ := List.getElem?_eq_some_iff.mp hc
    have hs : parent.children = parent.children.take i ++ n :: parent.children.drop (i + 1) := by
      rw [← hget, List.cons_getElem_drop_succ, List.take_append_drop]
    have hl : (parent.children.take i).length = i := List.length_take_of_le (Nat.le_of_lt hlt)
    exact ⟨_, _, _, _, hl ▸ h.child hp hs⟩

-- The last part says that every visitor that lets the walk go on is told of just these steps,
-- whatever the nodes are told apart by.
theorem trace_below {ι : Type v} [DecidableEq ι] {σ : Type u} (key : Address → ι) (d : Document)
    (visitor : Visitor σ) (a : Address) (n : Node) (hn : d.root.at? a = some n) :
    (∃ before after earlier later, d.Segment a n before after earlier later) ∧
      (d.trace [] [] d.root).1 =
        Step.inside (d.call? d.root) (d.root.children.flatMap fun c => (d.trace [] [] c).1) ∧
      (visitor.Proceeds → (n.addresses.map key).Nodup → ∀ s,
        d.walkBy key visitor n s = ((d.trace [] [] n).1.foldl visitor.take s, .finished)) := by
  simp only [trace_eq_events]
  refine ⟨exists_segment hn, d.events_eq_inside d.root, ?_⟩
  intro hv hk s
  rw [walkBy_eq_visit d visitor s hk, visit_proceeding hv]

-- The example is named by a heredoc whose body is no part of it.
theorem stacked_trace_below :
    ∃ n, stacked.root.at? [2] = some n ∧ (∀ m ∈ n.preorder, m.kind ≠ .heredocBody) ∧
      (∃ before after earlier later, stacked.Segment [2] n before after earlier later) ∧
      (stacked.trace [] [] n).1.filterMap (fun step => step.entered?.bind Call.argument) =
        [.string "b"] ∧
      (stacked.walkBy number (.recorder [] []) n #[]).1.size = 2 := by
  refine ⟨_, rfl, by decide, ?_⟩
  have ⟨hs, _, hw⟩ := trace_below number stacked (.recorder [] []) [2] _ rfl
  have hw := hw (fun _ _ => rfl) (by decide) #[]
  rw [trace_eq_events] at hw ⊢
  exact ⟨hs, by decide, by rw [hw]; decide⟩

end Document

end TestLens
