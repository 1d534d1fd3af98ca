import Mathlib.Data.List.Infix
import TestLens.Proofs.Extents

namespace TestLens

namespace Node

def bodyFrom? (offset : Nat) : Node → Option Node
  | n@⟨kind, start, stop, _, _, _, children⟩ =>
    if kind = .heredocBody then
      if offset ≤ start then some n else none
    else if offset < stop then among children else none
where
  among : List Node → Option Node
    | [] => none
    | c :: cs =>
      match c.bodyFrom? offset with
      | some body => some body
      | none => among cs

theorem bodyFrom?_eq (n : Node) (offset : Nat) :
    n.bodyFrom? offset =
      if n.kind = .heredocBody then if offset ≤ n.start then some n else none
      else if offset < n.stop then bodyFrom?.among offset n.children else none := by
  cases n; rfl

theorem among_cons (offset : Nat) (n : Node) (ns : List Node) :
    bodyFrom?.among offset (n :: ns) = (n.bodyFrom? offset).or (bodyFrom?.among offset ns) := by
  rw [bodyFrom?.among]
  cases n.bodyFrom? offset <;> rfl

end Node

namespace Cursor

variable {offset : Nat}

def seekAmong? (offset : Nat) (parent : Node) (crumbs : List Crumb) (i : Nat) :
    List Node → Option Node
  | [] => passBody? offset ⟨parent, crumbs⟩
  | n :: ns => seekBody? offset ⟨n, ⟨parent, i, ns⟩ :: crumbs⟩

theorem passBody?_eq_seekAmong? (n parent : Node) (i : Nat) (ns : List Node)
    (crumbs : List Crumb) :
    passBody? offset ⟨n, ⟨parent, i, ns⟩ :: crumbs⟩ =
      seekAmong? offset parent crumbs (i + 1) ns := by
  rw [passBody?]
  cases ns <;> rfl

theorem seekBody?_eq_seekAmong? (n : Node) (crumbs : List Crumb) :
    seekBody? offset ⟨n, crumbs⟩ =
      if n.kind = .heredocBody then
        if offset ≤ n.start then some n else passBody? offset ⟨n, crumbs⟩
      else if offset < n.stop then seekAmong? offset n crumbs 0 n.children
      else passBody? offset ⟨n, crumbs⟩ := by
  obtain ⟨kind, start, stop, named, extra, field, children⟩ := n
  rw [seekBody?]
  cases children <;> rfl

-- What is behind a node is looked at only when nothing was found up to there.
theorem seekBody?_eq (n : Node) (crumbs : List Crumb) :
    seekBody? offset ⟨n, crumbs⟩ = (n.bodyFrom? offset).or (passBody? offset ⟨n, crumbs⟩) := by
  induction n using Node.induction (fun ns => ∀ parent crumbs i,
    seekAmong? offset parent crumbs i ns =
      (Node.bodyFrom?.among offset ns).or (passBody? offset ⟨parent, crumbs⟩))
    generalizing crumbs
  case node n hi =>
    rw [seekBody?_eq_seekAmong?, n.bodyFrom?_eq, hi n crumbs 0]
    split
    case isTrue => split <;> rfl
    case isFalse => split <;> rfl
  case nil => rfl
  case cons n ns hn hi parent crumbs i =>
    rw [seekAmong?, hn, passBody?_eq_seekAmong?, hi parent crumbs (i + 1), Node.among_cons,
      Option.or_assoc]

-- The cursors that moves lead to from a root.
inductive From (root : Node) : Cursor → Prop
  | start : From root (.start root)
  | child {c child : Cursor} (hc : From root c) (h : c.firstChild? = some child) : From root child
  | sibling {c next : Cursor} (hc : From root c) (h : c.nextSibling? = some next) : From root next
  | parent {c parent : Cursor} (hc : From root c) (h : c.parent? = some parent) : From root parent

variable {root : Node} {c : Cursor}

theorem top_of_parent? {parent : Cursor} (h : c.parent? = some parent) : c.top = parent.top := by
  rw [top]
  split
  case h_1 h' =>
    cases h.symm.trans h'
    rfl
  case h_2 h' => cases h.symm.trans h'

theorem parent?_of_firstChild? {child : Cursor} (h : c.firstChild? = some child) :
    child.parent? = some c := by
  unfold firstChild? at h
  split at h
  case h_1 => contradiction
  case h_2 =>
    cases h
    rfl

theorem parent?_of_nextSibling? {next : Cursor} (h : c.nextSibling? = some next) :
    ∃ parent, c.parent? = some parent ∧ next.parent? = some parent := by
  unfold nextSibling? at h
  split at h
  case h_1 hc =>
    cases h
    exact ⟨_, by rw [parent?, hc], rfl⟩
  case h_2 => contradiction

-- No move changes where going up ends.
theorem From.top_eq (h : From root c) : c.top = .start root := by
  induction h
  case start =>
    rw [top]
    rfl
  case child h hi => rw [top_of_parent? (parent?_of_firstChild? h), hi]
  case sibling h hi =>
    have ⟨_, hc, hn⟩ := parent?_of_nextSibling? h
    rw [top_of_parent? hn, ← top_of_parent? hc, hi]
  case parent h hi => rw [← top_of_parent? h, hi]

theorem From.child_at (h : From root c) {i : Nat} {n : Node} (hn : c.node.children[i]? = some n) :
    From root ⟨n, ⟨c.node, i, c.node.children.drop (i + 1)⟩ :: c.crumbs⟩ := by
  induction i generalizing n
  case zero =>
    apply h.child
    rw [firstChild?]
    cases hc : c.node.children
    case nil => simp [hc] at hn
    case cons m ms =>
      rw [hc] at hn
      cases hn
      rfl
  case succ i hi =>
    have ⟨hlt, hget⟩ := List.getElem?_eq_some_iff.mp hn
    have hs := hi (List.getElem?_eq_getElem (Nat.lt_of_succ_lt hlt))
    rw [← List.cons_getElem_drop_succ (h := hlt), hget] at hs
    exact hs.sibling rfl

theorem exists_from {n : Node} {a : Address} (hn : root.at? a = some n) :
    ∃ c, From root c ∧ c.node = n ∧ c.address = a := by
  induction a generalizing n
  case nil =>
    cases hn
    exact ⟨_, .start, rfl, rfl⟩
  case cons i a hi =>
    have ⟨parent, hp, hc⟩ := Option.bind_eq_some_iff.mp hn
    obtain ⟨c, hf, rfl, rfl⟩ := hi hp
    exact ⟨_, hf.child_at hc, rfl, rfl⟩

theorem From.heredocBody?_eq (h : From root c) : c.heredocBody? = root.heredocBody? c.node := by
  rw [heredocBody?, h.top_eq]
  rfl

end Cursor

namespace Node

theorem heredocBody?_eq_bodyFrom? (root opener : Node) :
    root.heredocBody? opener = root.bodyFrom? opener.stop := by
  have hp : Cursor.passBody? opener.stop ⟨root, []⟩ = none := by
    rw [Cursor.passBody?]
    rfl
  rw [heredocBody?, Cursor.start, Cursor.seekBody?_eq, hp, Option.or_none]

def Above (root : Node) (p : Node → Prop) (a : Address) : Prop :=
  ∀ b ∈ a.tails, b ≠ a → ∀ n ∈ root.at? b, p n

instance (root : Node) (p : Node → Prop) [DecidablePred p] (a : Address) :
    Decidable (root.Above p a) :=
  inferInstanceAs (Decidable (∀ b ∈ a.tails, _))

def Suits (root : Node) (offset : Nat) (a : Address) : Prop :=
  ∃ n ∈ root.at? a, n.kind = .heredocBody ∧ offset ≤ n.start

instance (root : Node) (offset : Nat) (a : Address) : Decidable (root.Suits offset a) :=
  inferInstanceAs (Decidable (∃ n ∈ root.at? a, _))

-- A body that is not inside of another one stands at the address, and it starts at or after the
-- offset.
def Offers (root : Node) (offset : Nat) (a : Address) : Prop :=
  root.Suits offset a ∧ root.Above (fun n => n.kind ≠ .heredocBody) a

instance (root : Node) (offset : Nat) (a : Address) : Decidable (root.Offers offset a) :=
  inferInstanceAs (Decidable (_ ∧ _))

-- The cursor gets there too: no node above the address ends at the offset or before it.
def Meets (root : Node) (offset : Nat) (a : Address) : Prop :=
  root.Suits offset a ∧ root.Above (fun n => n.kind ≠ .heredocBody ∧ offset < n.stop) a

instance (root : Node) (offset : Nat) (a : Address) : Decidable (root.Meets offset a) :=
  inferInstanceAs (Decidable (_ ∧ _))

def NoEmptyBodyAt (root : Node) (offset : Nat) : Prop :=
  ∀ n ∈ root.preorder, n.kind = .heredocBody → n.start = offset → offset < n.stop

instance (root : Node) (offset : Nat) : Decidable (root.NoEmptyBodyAt offset) :=
  inferInstanceAs (Decidable (∀ n ∈ root.preorder, _))

variable {root : Node} {offset : Nat}

section

variable {n : Node} {a b : Address} {p : Node → Prop}

theorem suits_iff (hn : root.at? a = some n) :
    root.Suits offset a ↔ n.kind = .heredocBody ∧ offset ≤ n.start := by
  simp [Suits, hn]

theorem above_root (p : Node → Prop) : root.Above p [] := by
  intro b hb hne
  exact absurd (List.suffix_nil.mp ((List.mem_tails _ _).mp hb)) hne

theorem Above.child (h : root.Above p a) (hn : root.at? a = some n) (hp : p n) (i : Nat) :
    root.Above p (i :: a) := by
  intro b hb hne m hm
  cases List.suffix_cons_iff.mp ((List.mem_tails _ _).mp hb)
  case inl hb => exact absurd hb hne
  case inr hb =>
    by_cases he : b = a
    case pos =>
      subst he
      cases hn.symm.trans hm
      exact hp
    case neg => exact h b ((List.mem_tails _ _).mpr hb) he m hm

theorem not_above_of_child_suffix (hn : root.at? a = some n) (hp : ¬ p n) {i : Nat}
    (hs : (i :: a) <:+ b) : ¬ root.Above p b := by
  intro h
  have hs' := (List.suffix_cons i a).trans hs
  exact hp (h a ((List.mem_tails _ _).mpr hs') (ne_of_child_suffix hs) n hn)

theorem at?_of_find?_meets {as : List Address} (h : as.find? (root.Meets offset ·) = some a) :
    ∃ m, root.at? a = some m ∧ m.kind = .heredocBody ∧ offset ≤ m.start := by
  have hm : root.Meets offset a := by simpa using List.find?_some h
  exact hm.left

end

theorem bodyFrom?_eq_find? {n : Node} {a : Address} (hn : root.at? a = some n)
    (ha : root.Above (fun n => n.kind ≠ .heredocBody ∧ offset < n.stop) a) :
    n.bodyFrom? offset = ((n.addressesFrom a).find? (root.Meets offset ·)).bind root.at? := by
  -- The search goes below a node or does not; either way it leaves out nothing that it can meet.
  induction a, n, hn using Node.induction_at fun a i ns =>
    (∀ j : Nat, root.Above (fun n => n.kind ≠ .heredocBody ∧ offset < n.stop) (j :: a)) →
    bodyFrom?.among offset ns =
      ((addressesFrom.below a i ns).find? (root.Meets offset ·)).bind root.at?
  case node a n hn hi =>
    have hm : root.Meets offset a ↔ n.kind = .heredocBody ∧ offset ≤ n.start := by
      rw [Meets, suits_iff hn, and_iff_left ha]
    rw [bodyFrom?_eq, addressesFrom_eq, List.find?_cons]
    by_cases he : n.kind ≠ .heredocBody ∧ offset < n.stop
    case pos =>
      have hna : ¬ root.Meets offset a := fun h => he.left (hm.mp h).left
      simp only [hna, decide_false, if_neg he.left, if_pos he.right]
      exact hi (ha.child hn he)
    case neg =>
      have hnone : (addressesFrom.below a 0 n.children).find? (root.Meets offset ·) = none := by
        refine List.find?_eq_none.mpr fun b hb => ?_
        obtain ⟨i, _, hs⟩ := suffix_of_mem_below hb
        have hnb : ¬ root.Meets offset b := fun h => not_above_of_child_suffix hn he hs h.right
        simpa using hnb
      rw [hnone]
      by_cases hk : n.kind = .heredocBody
      case pos => by_cases ho : offset ≤ n.start <;> simp [hm, hk, ho, hn]
      case neg =>
        have hstop : ¬ offset < n.stop := fun h => he ⟨hk, h⟩
        simp [hm, hk, hstop]
  case nil => rfl
  case cons a i n ns _ hn hi ha =>
    rw [among_cons, hn (ha i), hi ha, addressesFrom.below, List.find?_append]
    cases hx : (n.addressesFrom (i :: a)).find? (root.Meets offset ·)
    case none => rfl
    case some x =>
      obtain ⟨m, hm, _⟩ := at?_of_find?_meets hx
      simp [hm]

theorem heredocBody?_eq_find? (root o : Node) :
    root.heredocBody? o = (root.addresses.find? (root.Meets o.stop ·)).bind root.at? := by
  rw [heredocBody?_eq_bodyFrom?]
  exact bodyFrom?_eq_find? rfl (above_root _)

theorem heredocBody?_eq_none_iff {o : Node} :
    root.heredocBody? o = none ↔ ∀ a, ¬ root.Meets o.stop a := by
  rw [heredocBody?_eq_find?]
  constructor
  case mp =>
    intro h a hm
    cases hx : root.addresses.find? (root.Meets o.stop ·)
    case none =>
      obtain ⟨n, hn, _⟩ := hm.left
      simpa [hm] using List.find?_eq_none.mp hx a (mem_addresses_of_at? hn)
    case some x =>
      obtain ⟨m, hx', _⟩ := at?_of_find?_meets hx
      rw [hx] at h
      cases hx'.symm.trans h
  case mpr =>
    intro h
    rw [List.find?_eq_none.mpr fun a _ => by simpa using h a]
    rfl

theorem body_of_heredocBody? {o body : Node} (h : root.heredocBody? o = some body) :
    body ∈ root.preorder ∧ body.kind = .heredocBody ∧ o.stop ≤ body.start := by
  rw [heredocBody?_eq_find?] at h
  obtain ⟨a, ha, hb⟩ := Option.bind_eq_some_iff.mp h
  obtain ⟨m, hm, hk, hs⟩ := at?_of_find?_meets ha
  cases hm.symm.trans hb
  exact ⟨mem_preorder_of_at? hm, hk, hs⟩

theorem WellNested.above_of_lt_stop {n : Node} {a : Address} (hw : root.WellNested)
    (hn : root.at? a = some n) (hlt : offset < n.stop) : root.Above (offset < ·.stop) a := by
  intro b hb _ m hm
  obtain ⟨m', hm', _, hin⟩ := hw.inside hn ((List.mem_tails _ _).mp hb)
  cases hm.symm.trans hm'
  omega

theorem lt_stop_of_le_start {n : Node} (hw : root.WellNested) (hz : root.NoEmptyBodyAt offset)
    (hn : n ∈ root.preorder) (hk : n.kind = .heredocBody) (hle : offset ≤ n.start) :
    offset < n.stop := by
  by_cases he : n.start = offset
  case pos => exact hz n hn hk he
  case neg =>
    have := (hw n hn).left
    omega

theorem meets_iff_offers {a : Address} (hw : root.WellNested) (hz : root.NoEmptyBodyAt offset) :
    root.Meets offset a ↔ root.Offers offset a := by
  -- A node that ends at the offset has room for an empty body there, and for no other one.
  constructor
  case mp => exact fun ⟨hs, ha⟩ => ⟨hs, fun b hb hne n hn => (ha b hb hne n hn).left⟩
  case mpr =>
    intro ⟨⟨n, hn, hk, hle⟩, ha⟩
    have hlt := lt_stop_of_le_start hw hz (mem_preorder_of_at? hn) hk hle
    have hstop := hw.above_of_lt_stop hn hlt
    exact ⟨⟨n, hn, hk, hle⟩, fun b hb hne m hm => ⟨ha b hb hne m hm, hstop b hb hne m hm⟩⟩

-- On the right-hand side every node of the tree is looked at. To pass over what ends too early only
-- saves time. The search starts at the root wherever the opener stands, since a cursor that is at
-- the opener goes up as far as it can before.
theorem heredocBody?_exhaustive (root o : Node) (hw : root.WellNested)
    (hz : ∀ n ∈ root.preorder, n.kind = .heredocBody → n.start ≠ n.stop) :
    root.heredocBody? o = (root.addresses.find? (root.Offers o.stop ·)).bind root.at? ∧
      (root.heredocBody? o = none ↔ ∀ a, ¬ root.Offers o.stop a) ∧
      (∀ c, Cursor.From root c → c.node = o → c.heredocBody? = root.heredocBody? o) ∧
      ∀ a, root.at? a = some o → ∃ c, Cursor.From root c ∧ c.node = o ∧ c.address = a := by
  have hz : root.NoEmptyBodyAt o.stop := by
    intro n hn hk hs
    have := (hw n hn).left
    have := hz n hn hk
    omega
  have hm (a : Address) : root.Meets o.stop a ↔ root.Offers o.stop a := meets_iff_offers hw hz
  refine ⟨?_, ?_, ?_, fun a => Cursor.exists_from⟩
  case refine_1 =>
    rw [heredocBody?_eq_find?]
    congr 2
    exact funext fun a => decide_eq_decide.mpr (hm a)
  case refine_2 => simp only [heredocBody?_eq_none_iff, hm]
  case refine_3 => exact fun c hc he => he ▸ hc.heredocBody?_eq

end Node

namespace Document

-- A call and below it an example, each of them with a heredoc.
def stacked : Document where
  text := "foo <<~A\n  a\nA\nit <<~B\n  b\nB\n"
  hasErrors := false
  root := ⟨.other "program", 0, 29, true, false, none,
    [⟨.call, 0, 8, true, false, none,
      [⟨.identifier, 0, 3, true, false, some .method, []⟩,
       ⟨.other "argument_list", 4, 8, true, false, some .arguments,
        [⟨.heredocBeginning, 4, 8, true, false, none, []⟩]⟩]⟩,
     ⟨.heredocBody, 8, 14, true, true, none,
      [⟨.heredocContent, 8, 13, true, false, none, []⟩,
       ⟨.other "heredoc_end", 13, 14, true, false, none, []⟩]⟩,
     ⟨.call, 15, 22, true, false, none,
      [⟨.identifier, 15, 17, true, false, some .method, []⟩,
       ⟨.other "argument_list", 18, 22, true, false, some .arguments,
        [⟨.heredocBeginning, 18, 22, true, false, none, []⟩]⟩]⟩,
     ⟨.heredocBody, 22, 28, true, true, none,
      [⟨.heredocContent, 22, 27, true, false, none, []⟩,
       ⟨.other "heredoc_end", 27, 28, true, false, none, []⟩]⟩]⟩

theorem stacked_exhaustive :
    stacked.root.WellNested ∧
      (∀ n ∈ stacked.root.preorder, n.kind = .heredocBody → n.start ≠ n.stop) ∧
      ∃ c, Cursor.From stacked.root c ∧ c.address = [0, 1, 2] ∧
        c.heredocBody? = stacked.root.at? [3] := by
  have ⟨hb, _, hc, ha⟩ := Node.heredocBody?_exhaustive stacked.root
    ⟨.heredocBeginning, 18, 22, true, false, none, []⟩ (by decide) (by decide)
  have ⟨c, hf, hn, hadr⟩ := ha [0, 1, 2] rfl
  refine ⟨by decide, by decide, c, hf, hadr, ?_⟩
  rw [hc c hf hn, hb]
  rfl

end Document

end TestLens
