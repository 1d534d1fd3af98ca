import Mathlib.Data.List.Nodup
import TestLens.Proofs.Address
import TestLens.Walk.Trace

universe u v

namespace TestLens.Walk

variable {σ : Type u}

-- Goes on after a part of a walk, unless that part ended the walk.
def andThen (part : σ × Ending) (next : σ → σ × Ending) : σ × Ending :=
  match part with
  | (s, .stopped) => (s, .stopped)
  | (s, .finished) => next s

theorem andThen_assoc (part : σ × Ending) (f g : σ → σ × Ending) :
    andThen (andThen part f) g = andThen part fun s => andThen (f s) g := by
  obtain ⟨s, _ | _⟩ := part <;> rfl

theorem andThen_finished (part : σ × Ending) : andThen part (fun s => (s, .finished)) = part := by
  obtain ⟨s, _ | _⟩ := part <;> rfl

def visit (d : Document) (visitor : Visitor σ) (s : σ) : Node → σ × Ending
  | n@⟨_, _, _, _, _, _, children⟩ =>
    match d.call? n with
    | none => visitAll s children
    | some call =>
      match visitor.enter s call with
      | (s, .stop) => (s, .stopped)
      | (s, .skip) => (visitor.leave s call, .finished)
      | (s, .proceed) =>
        andThen (visitAll s children) fun s => (visitor.leave s call, .finished)
where
  visitAll (s : σ) : List Node → σ × Ending
    | [] => (s, .finished)
    | c :: cs => andThen (visit d visitor s c) fun s => visitAll s cs

variable {d : Document} {visitor : Visitor σ} {n : Node}

theorem visit_eq_visitAll (hc : d.call? n = none) (s : σ) :
    visit d visitor s n = visit.visitAll d visitor s n.children := by
  cases n
  rw [visit, hc]

theorem visit_of_call {call : Call} (hc : d.call? n = some call) (s : σ) :
    visit d visitor s n =
      match visitor.enter s call with
      | (s, .stop) => (s, .stopped)
      | (s, .skip) => (visitor.leave s call, .finished)
      | (s, .proceed) =>
        andThen (visit.visitAll d visitor s n.children)
          fun s => (visitor.leave s call, .finished) := by
  cases n
  rw [visit, hc]

section Simulation

variable {ι : Type v} {key : Address → ι} {root : Node} {a : Address} {pending : List (Pending ι)}

-- Every call that is still to be left stands at a node strictly above an address. The pending calls
-- are part of the way from the root to the cursor, and this keeps a key from being found at the
-- wrong node.
def Above (key : Address → ι) (root : Node) (a : Address) (pending : List (Pending ι)) : Prop :=
  ∀ p ∈ pending, ∃ b ∈ root.addresses, p.key = key b ∧ b <:+ a ∧ b ≠ a

theorem Above.child (h : Above key root a pending) (i : Nat) :
    Above key root (i :: a) pending := by
  intro p hp
  have ⟨b, hb, hk, hs, _⟩ := h p hp
  refine ⟨b, hb, hk, hs.trans (List.suffix_cons i a), ?_⟩
  intro he
  have := (he ▸ hs).length_le
  rw [List.length_cons] at this
  omega

theorem Above.opened (h : Above key root a pending) (ha : a ∈ root.addresses) (call : Call)
    (i : Nat) : Above key root (i :: a) (⟨key a, call⟩ :: pending) := by
  intro p hp
  cases List.mem_cons.mp hp
  case inl hp =>
    subst hp
    exact ⟨a, ha, rfl, List.suffix_cons i a, by simp⟩
  case inr hp => exact h.child i p hp

variable [DecidableEq ι] {s : σ}

theorem arrive_eq_inside {c : Cursor} (hc : d.call? c.node = none) :
    arrive key d visitor c pending s = inside key d visitor c pending s := by
  rw [arrive, hc]

theorem arrive_of_call {c : Cursor} {call : Call} (hc : d.call? c.node = some call) :
    arrive key d visitor c pending s =
      match visitor.enter s call with
      | (s, .stop) => (s, .stopped)
      | (s, .skip) => finish key d visitor c (⟨key c.address, call⟩ :: pending) s
      | (s, .proceed) => inside key d visitor c (⟨key c.address, call⟩ :: pending) s := by
  have h := arrive.eq_def key d visitor c pending s
  rw [hc] at h
  exact h

theorem close_opened (call : Call) :
    close visitor (key a) (⟨key a, call⟩ :: pending) s = (pending, visitor.leave s call) := by
  simp [close]

-- At a node that opened no call, nothing is left.
theorem close_above (hk : (root.addresses.map key).Nodup) (ha : a ∈ root.addresses)
    (h : Above key root a pending) : close visitor (key a) pending s = (pending, s) := by
  cases pending
  case nil => rfl
  case cons p ps =>
    have ⟨b, hb, hp, _, hne⟩ := h p (List.mem_cons_self ..)
    have : p.key ≠ key a := by
      rw [hp]
      exact fun he => hne (List.inj_on_of_nodup_map hk hb ha he)
    simp [close, this]

-- Being done with a node depends on the pending calls only through what is left there.
theorem finish_congr {c : Cursor} {pending' : List (Pending ι)} {s' : σ}
    (h : close visitor (key c.address) pending s = close visitor (key c.address) pending' s') :
    finish key d visitor c pending s = finish key d visitor c pending' s' := by
  rw [finish, finish, h]

def siblings (key : Address → ι) (d : Document) (visitor : Visitor σ) (parent : Node)
    (crumbs : List Crumb) (i : Nat) (pending : List (Pending ι)) (s : σ) :
    List Node → σ × Ending
  | [] => finish key d visitor ⟨parent, crumbs⟩ pending s
  | n :: ns => arrive key d visitor ⟨n, ⟨parent, i, ns⟩ :: crumbs⟩ pending s

theorem inside_eq_siblings (n : Node) (crumbs : List Crumb) :
    inside key d visitor ⟨n, crumbs⟩ pending s =
      siblings key d visitor n crumbs 0 pending s n.children := by
  obtain ⟨kind, start, stop, named, extra, field, children⟩ := n
  rw [inside]
  cases children <;> rfl

theorem finish_eq_siblings (hk : (root.addresses.map key).Nodup) {parent n : Node} {i : Nat}
    {ns : List Node} {crumbs : List Crumb} (ha : i :: crumbs.map Crumb.index ∈ root.addresses)
    (h : Above key root (i :: crumbs.map Crumb.index) pending) :
    finish key d visitor ⟨n, ⟨parent, i, ns⟩ :: crumbs⟩ pending s =
      siblings key d visitor parent crumbs (i + 1) pending s ns := by
  rw [finish]
  simp only [Cursor.address, List.map_cons, close_above hk ha h]
  cases ns <;> rfl

theorem arrive_eq (hk : (root.addresses.map key).Nodup) {n : Node} (crumbs : List Crumb)
    (pending : List (Pending ι)) (s : σ) (hn : root.at? (crumbs.map Crumb.index) = some n)
    (h : Above key root (crumbs.map Crumb.index) pending) :
    arrive key d visitor ⟨n, crumbs⟩ pending s =
      andThen (visit d visitor s n) (finish key d visitor ⟨n, crumbs⟩ pending) := by
  -- The continuation is what makes the induction go through: after a node the walk is done with it,
  -- and no call has been added to those that were pending when it came there.
  induction n using Node.induction (fun ns => ∀ parent crumbs i pending s,
    root.at? (crumbs.map Crumb.index) = some parent → parent.children.drop i = ns →
    (∀ j, Above key root (j :: crumbs.map Crumb.index) pending) →
    siblings key d visitor parent crumbs i pending s ns =
      andThen (visit.visitAll d visitor s ns) (finish key d visitor ⟨parent, crumbs⟩ pending))
    generalizing crumbs pending s
  case node n hi =>
    have ha := Node.mem_addresses_of_at? hn
    have hi pending s := hi n crumbs 0 pending s hn rfl
    cases hc : d.call? n
    case none =>
      rw [arrive_eq_inside hc, visit_eq_visitAll hc, inside_eq_siblings]
      exact hi pending s h.child
    case some call =>
      have hl s :
          finish key d visitor ⟨n, crumbs⟩ (⟨key (crumbs.map Crumb.index), call⟩ :: pending) s =
          finish key d visitor ⟨n, crumbs⟩ pending (visitor.leave s call) :=
        finish_congr (by simp only [Cursor.address, close_opened, close_above hk ha h])
      rw [arrive_of_call hc, visit_of_call hc]
      split
      case _ => rfl
      case _ => exact hl _
      case _ =>
        rw [inside_eq_siblings, andThen_assoc]
        exact (hi _ _ (h.opened ha call)).trans (congrArg _ (funext hl))
  case nil => rfl
  case cons n ns hm hi parent crumbs i pending s hp hd h =>
    obtain ⟨hn, hd⟩ := Node.at?_sibling hp hd
    rw [siblings, hm (⟨parent, i, ns⟩ :: crumbs) pending s hn (h i), visit.visitAll, andThen_assoc]
    congr 1
    funext s
    rw [finish_eq_siblings hk (Node.mem_addresses_of_at? hn) (h i)]
    exact hi parent crumbs (i + 1) pending s hp hd h

end Simulation

def Agree (d : Document) (ns : List Node) (v w : Visitor σ) : Prop :=
  ∀ n ∈ ns, ∀ call, d.call? n = some call →
    ∀ s, v.enter s call = w.enter s call ∧ v.leave s call = w.leave s call

theorem visit_congr {v w : Visitor σ} (h : Agree d n.preorder v w) (s : σ) :
    visit d v s n = visit d w s n := by
  induction n using Node.induction (fun ns => Agree d (Node.preorder.below ns) v w →
    ∀ s, visit.visitAll d v s ns = visit.visitAll d w s ns) generalizing s
  case node n hi =>
    rw [Node.preorder_eq] at h
    have hi := hi fun m hm => h m (List.mem_cons_of_mem n hm)
    cases hc : d.call? n
    case none => rw [visit_eq_visitAll hc, visit_eq_visitAll hc, hi]
    case some call => simp only [visit_of_call hc, h n (List.mem_cons_self ..) call hc, hi]
  case nil => rfl
  case cons n ns hn hi h s =>
    have hn := hn fun m hm => h m (List.mem_append_left _ hm)
    have hi := hi fun m hm => h m (List.mem_append_right _ hm)
    simp only [visit.visitAll, hn, hi]

end TestLens.Walk

namespace TestLens.Document

variable {ι : Type v} [DecidableEq ι] {σ : Type u}

theorem walkBy_eq_visit {key : Address → ι} {start : Node} (d : Document) (visitor : Visitor σ)
    (s : σ) (hk : (start.addresses.map key).Nodup) :
    d.walkBy key visitor start s = Walk.visit d visitor s start := by
  have hf s : Walk.finish key d visitor ⟨start, []⟩ [] s = (s, .finished) := by
    rw [Walk.finish]
    rfl
  rw [walkBy, Cursor.start, Walk.arrive_eq hk [] [] s rfl (fun _ h => nomatch h)]
  rw [funext hf, Walk.andThen_finished]

theorem walkFrom_eq_visit (d : Document) (visitor : Visitor σ) (start : Node) (s : σ) :
    d.walkFrom visitor start s = Walk.visit d visitor s start :=
  d.walkBy_eq_visit visitor s (by simpa using start.addresses_nodup)

-- A group with two more inside, the first of which is called on something else than the framework.
def nested : Document where
  text := "describe \x7b x.context \x7b it() \x7d context \x7b it() \x7d \x7d"
  hasErrors := false
  root := ⟨.call, 0, 48, true, false, none,
    [⟨.identifier, 0, 8, true, false, some .method, []⟩,
     ⟨.other "block", 9, 48, true, false, some .block,
      [⟨.call, 11, 29, true, false, none,
        [⟨.identifier, 11, 12, true, false, some .receiver, []⟩,
         ⟨.identifier, 13, 20, true, false, some .method, []⟩,
         ⟨.other "block", 21, 29, true, false, some .block,
          [⟨.call, 23, 27, true, false, none,
            [⟨.identifier, 23, 25, true, false, some .method, []⟩]⟩]⟩]⟩,
       ⟨.call, 30, 46, true, false, none,
        [⟨.identifier, 30, 37, true, false, some .method, []⟩,
         ⟨.other "block", 38, 46, true, false, some .block,
          [⟨.call, 40, 44, true, false, none,
            [⟨.identifier, 40, 42, true, false, some .method, []⟩]⟩]⟩]⟩]⟩]⟩

-- Numbers the nodes of trees in which no node has more than three children.
def number (a : Address) : Nat :=
  a.foldr (fun i n => 3 * n + i + 1) 0

-- The second part says that nothing outside of the starting node is visited: what a visitor would
-- do with other calls makes no difference.
theorem walkBy_refines_recursion (key : Address → ι) (d : Document) (visitor : Visitor σ)
    (start : Node) (s : σ) (hk : (start.addresses.map key).Nodup) :
    d.walkBy key visitor start s = Walk.visit d visitor s start ∧
      ∀ other, Walk.Agree d start.preorder visitor other →
        d.walkBy key other start s = d.walkBy key visitor start s := by
  refine ⟨d.walkBy_eq_visit visitor s hk, ?_⟩
  intro other h
  rw [d.walkBy_eq_visit visitor s hk, d.walkBy_eq_visit other s hk]
  exact (Walk.visit_congr h s).symm

theorem nested_walkBy_skips :
    (nested.walkBy number (.recorder ["context"] []) nested.root #[]).1.size = 6 := by
  rw [(walkBy_refines_recursion number nested _ nested.root #[] (by decide)).left]
  decide

end TestLens.Document
