import Mathlib.Data.List.Forall2
import TestLens.Proofs.Literals
import TestLens.Proofs.Outline

namespace TestLens

namespace Node

def openers (root : Node) : List Node :=
  root.preorder.filter fun n => n.kind = .heredocBeginning

def bodies (root : Node) : List Node :=
  root.preorder.filter fun n => n.kind = .heredocBody

-- Every opener has a body behind it, the first one the first body and so on.
structure Assigned (root : Node) : Prop where
  nested : root.WellNested
  apart : ∀ b ∈ root.bodies, ∀ o ∈ b.preorder, o.kind ≠ .heredocBeginning
  behind : List.Forall₂ (fun o b => o.stop ≤ b.start) root.openers root.bodies

variable {root o b : Node} {a : Address}

theorem mem_openers_iff : o ∈ root.openers ↔ o ∈ root.preorder ∧ o.kind = .heredocBeginning := by
  simp [openers]

theorem mem_bodies_iff : b ∈ root.bodies ↔ b ∈ root.preorder ∧ b.kind = .heredocBody := by
  simp [bodies]

-- A body that starts behind the opener, and is not just an empty one at its end.
def FollowedBy (o b : Node) : Prop :=
  o.stop ≤ b.start ∧ o.stop < b.stop

instance (o b : Node) : Decidable (o.FollowedBy b) :=
  inferInstanceAs (Decidable (_ ∧ _))

theorem exists_address_of_bodies {before after : List Node}
    (h : root.bodies = before ++ b :: after) :
    ∃ front a back, root.addresses = front ++ a :: back ∧ root.at? a = some b ∧
      ∀ c ∈ front, ∀ n ∈ root.at? c, n.kind = .heredocBody → n ∈ before := by
  obtain ⟨ns, ms, hp, hb, hms⟩ := List.filter_eq_append_iff.mp h
  obtain ⟨ms₁, ms₂, rfl, hms₁, _⟩ := List.filter_eq_cons_iff.mp hms
  have ha := root.map_at?_addresses
  rw [hp, ← List.append_assoc, List.map_append] at ha
  obtain ⟨front, rest, hs, hf, hr⟩ := List.map_eq_append_iff.mp ha
  obtain ⟨a, back, rfl, hat, _⟩ := List.map_eq_cons_iff.mp hr
  refine ⟨front, a, back, hs, hat, fun c hc n hn hk => ?_⟩
  have hm : root.at? c ∈ (ns ++ ms₁).map some := hf ▸ List.mem_map_of_mem hc
  rw [hn, List.mem_map_of_injective (Option.some_injective _)] at hm
  cases List.mem_append.mp hm
  case inl hm => exact hb ▸ List.mem_filter.mpr ⟨hm, decide_eq_true hk⟩
  case inr hm => exact absurd (decide_eq_true hk) (hms₁ n hm)

namespace Assigned

theorem start_or_stop (h : root.Assigned) (ho : o ∈ root.openers) (hb : b ∈ root.bodies) :
    o.stop ≤ b.start ∨ b.stop ≤ o.stop := by
  -- The opener is not inside of a body, so it is in front of it or behind all of it.
  obtain ⟨hm, hk⟩ := mem_openers_iff.mp ho
  obtain ⟨x, hx, hox⟩ := exists_at?_of_mem_preorder hm
  obtain ⟨hbm, hkb⟩ := mem_bodies_iff.mp hb
  obtain ⟨a, ha, hba⟩ := exists_at?_of_mem_preorder hbm
  have hne : x ≠ a := by
    intro he
    subst he
    cases hox.symm.trans hba
    rw [hk] at hkb
    contradiction
  cases precedes_or_precedes hx ha hne
  case inl hp =>
    cases hp
    case inl hp =>
      obtain ⟨o', ho', _, hin⟩ := h.nested.inside hba hp.left
      cases hox.symm.trans ho'
      exact .inr hin
    case inr hp =>
      obtain ⟨p, i, j, hij, hi, hj⟩ := hp
      exact .inl (h.nested.behind hox hba hij hi hj)
  case inr hp =>
    cases hp
    case inl hp => exact absurd hk (h.apart b hb o (mem_preorder_of_suffix hba hox hp.left))
    case inr hp =>
      obtain ⟨p, i, j, hij, hi, hj⟩ := hp
      have := h.nested.behind hba hox hij hi hj
      have := (h.nested.nests hox).left
      exact .inr (by omega)

theorem meets_of_first (h : root.Assigned) (ho : o ∈ root.openers) {front back : List Address}
    (ha : root.addresses = front ++ a :: back) (hb : root.at? a = some b)
    (hk : b.kind = .heredocBody) (hf : o.FollowedBy b)
    (hfront : ∀ c ∈ front, ∀ n ∈ root.at? c, n.kind = .heredocBody → ¬ o.FollowedBy n) :
    root.Meets o.stop a := by
  -- A body above one that follows the opener follows it too. So the first body to follow is not
  -- inside of another one.
  refine ⟨(suits_iff hb).mpr ⟨hk, hf.left⟩, fun c hc hne n hn => ?_⟩
  have hstop := h.nested.above_of_lt_stop hb hf.right c hc hne n hn
  refine ⟨fun hkn => ?_, hstop⟩
  have hfn : o.FollowedBy n := by
    cases h.start_or_stop ho (mem_bodies_iff.mpr ⟨mem_preorder_of_at? hn, hkn⟩)
    case inl hle => exact ⟨hle, hstop⟩
    case inr hle => omega
  have hm := mem_addresses_of_at? hn
  rw [ha] at hm
  cases List.mem_append.mp hm
  case inl hm => exact hfront c hm n hn hkn hfn
  case inr hm =>
    cases List.mem_cons.mp hm
    case inl he => exact hne he
    case inr hm =>
      have hp := (List.pairwise_append.mp (ha ▸ root.addresses_ordered)).right.left
      exact not_suffix_of_precedes (List.rel_of_pairwise_cons hp hm) ((List.mem_tails _ _).mp hc)

-- The search does not get past the first body that follows the opener.
theorem heredocBody?_of_first (h : root.Assigned) (ho : o ∈ root.openers) {before after : List Node}
    (hs : root.bodies = before ++ b :: after) (hf : o.FollowedBy b)
    (hbefore : ∀ c ∈ before, ¬ o.FollowedBy c) :
    ∃ c ∈ before ++ [b], root.heredocBody? o = some c := by
  obtain ⟨front, a, back, ha, hb, hfront⟩ := exists_address_of_bodies hs
  have hbm : b ∈ root.bodies := by simp [hs]
  have hm : root.Meets o.stop a :=
    h.meets_of_first ho ha hb (mem_bodies_iff.mp hbm).right hf
      fun c hc n hn hkn => hbefore n (hfront c hc n hn hkn)
  rw [heredocBody?_eq_find?, ha, List.find?_append, List.find?_cons_of_pos (by simpa using hm)]
  cases hx : front.find? (root.Meets o.stop ·)
  case none => exact ⟨b, by simp, hb⟩
  case some x =>
    obtain ⟨n, hn, hkn, _⟩ := at?_of_find?_meets hx
    exact ⟨n, List.mem_append_left _ (hfront x (List.mem_of_find?_eq_some hx) n hn hkn), hn⟩

theorem heredocBody?_eq_some (h : root.Assigned) (ho : o ∈ root.openers) {before after : List Node}
    (hs : root.bodies = before ++ b :: after) (hf : o.FollowedBy b)
    (hbefore : ∀ c ∈ before, c.start < o.stop) : root.heredocBody? o = some b := by
  have hno (c : Node) (hc : c ∈ before) : ¬ o.FollowedBy c := by
    intro hf
    exact Nat.not_le_of_lt (hbefore c hc) hf.left
  obtain ⟨c, hc, hx⟩ := h.heredocBody?_of_first ho hs hf hno
  cases List.mem_append.mp hc
  case inl hc =>
    have := hbefore c hc
    have := (body_of_heredocBody? hx).right.right
    omega
  case inr hc => exact List.mem_singleton.mp hc ▸ hx

theorem heredocBody?_eq (h : root.Assigned) (ho : o ∈ root.openers)
    (hz : root.NoEmptyBodyAt o.stop) :
    root.heredocBody? o = root.bodies.find? (o.stop ≤ ·.start) := by
  cases hq : root.bodies.find? (o.stop ≤ ·.start)
  case none =>
    by_contra hne
    obtain ⟨c, hc⟩ := Option.ne_none_iff_exists'.mp hne
    obtain ⟨hm, hk, hle⟩ := body_of_heredocBody? hc
    simpa [hle] using List.find?_eq_none.mp hq c (mem_bodies_iff.mpr ⟨hm, hk⟩)
  case some b =>
    obtain ⟨hle, before, after, hs, hbefore⟩ := List.find?_eq_some_iff_append.mp hq
    obtain ⟨hm, hk⟩ := mem_bodies_iff.mp (List.mem_of_find?_eq_some hq)
    refine h.heredocBody?_eq_some ho hs ⟨of_decide_eq_true hle, ?_⟩ fun c hc => ?_
    case refine_1 => exact lt_stop_of_le_start h.nested hz hm hk (of_decide_eq_true hle)
    case refine_2 => simpa using hbefore c hc

theorem stop_le_start {i : Nat} (h : root.Assigned) (ho : root.openers[i]? = some o)
    (hb : root.bodies[i]? = some b) : o.stop ≤ b.start := by
  obtain ⟨hio, rfl⟩ := List.getElem?_eq_some_iff.mp ho
  obtain ⟨hib, rfl⟩ := List.getElem?_eq_some_iff.mp hb
  exact h.behind.get hio hib

end Assigned

end Node

namespace Document

variable {d : Document} {n o : Node} {call : Call} {site : Site}

def firstArgument? (n : Node) : Option Node :=
  ((handedOver n).filter fun c => !isBlockArgument c).head?

theorem argument_of_call? (h : d.call? n = some call) :
    call.argument = (firstArgument? n).map d.argument := by
  obtain ⟨_, rfl⟩ := exists_callOf h
  rfl

def NamedBy (d : Document) (o : Node) (name : String) : Prop :=
  ∀ site ∈ d.sites, site.emits → ∀ n, d.root.at? site.address = some n → firstArgument? n = some o →
    ∀ subject, ∀ lens ∈ (d.entryOf site).lenses subject, lens.arguments.name = name

theorem namedBy_of_argument {name : String} (ha : d.argument o = .string name) :
    d.NamedBy o name := by
  intro site hs _ n hn ho subject lens hl
  obtain ⟨n', hn', hc⟩ := mem_sites_iff.mp hs
  cases hn.symm.trans hn'
  have hc : site.call.argument = some (.string name) := by
    rw [argument_of_call? hc, ho, Option.map_some, ha]
  rw [((d.entryOf site).lenses_shows subject).name lens hl]
  simp [entryOf, nameOf, hc, Argument.name]

-- An opener gets the first body behind it. That is its own one unless the body of an earlier opener
-- is still to come; then it is the body of an earlier opener.
theorem opener_named_by_body (d : Document) (i : Nat) (o b : Node) (h : d.root.Assigned)
    (ho : d.root.openers[i]? = some o) (hb : d.root.bodies[i]? = some b) :
    (o.stop < b.stop → (∀ c ∈ d.root.bodies.take i, c.start < o.stop) →
        d.root.heredocBody? o = some b ∧
          (d.Fits → ¬ b.Interpolates →
            ∃ content name, d.Spells b content ∧ Text.Trims content name ∧
              d.NamedBy o (String.ofList name))) ∧
      ((∃ c ∈ d.root.bodies.take i, o.FollowedBy c) →
        ∃ c ∈ d.root.bodies.take i, d.root.heredocBody? o = some c) ∧
      (d.root.NoEmptyBodyAt o.stop →
        d.root.heredocBody? o = d.root.bodies.find? (o.stop ≤ ·.start)) := by
  have hmem := List.mem_of_getElem? ho
  refine ⟨?_, ?_, h.heredocBody?_eq hmem⟩
  case refine_1 =>
    intro hlt hbefore
    have hs : d.root.bodies = d.root.bodies.take i ++ b :: d.root.bodies.drop (i + 1) := by
      obtain ⟨hi, rfl⟩ := List.getElem?_eq_some_iff.mp hb
      rw [List.getElem_cons_drop, List.take_append_drop]
    have hbody := h.heredocBody?_eq_some hmem hs ⟨h.stop_le_start ho hb, hlt⟩ hbefore
    refine ⟨hbody, fun hf hi => ?_⟩
    have hk := (Node.mem_openers_iff.mp hmem).right
    obtain ⟨content, hc, ha⟩ := (argument_of_literal h.nested hf (Node.body_of_heredocBody? hbody).left
      (argument_of_opener hk hbody)).right hi
    exact ⟨content, Text.trim content, hc, Text.trim_trims content, namedBy_of_argument ha⟩
  case refine_2 =>
    intro ⟨c, hc, hf⟩
    have hsome : ((d.root.bodies.take i).find? (o.FollowedBy ·)).isSome :=
      List.find?_isSome.mpr ⟨c, hc, decide_eq_true hf⟩
    obtain ⟨x, hx⟩ := Option.isSome_iff_exists.mp hsome
    obtain ⟨hfx, before, after, hs, hbefore⟩ := List.find?_eq_some_iff_append.mp hx
    have hbodies : d.root.bodies = before ++ x :: (after ++ d.root.bodies.drop i) := by
      rw [← List.cons_append, ← List.append_assoc, ← hs, List.take_append_drop]
    obtain ⟨y, hy, hbody⟩ := h.heredocBody?_of_first hmem hbodies (of_decide_eq_true hfx)
      fun z hz => by simpa using hbefore z hz
    refine ⟨y, ?_, hbody⟩
    rw [hs, List.append_cons]
    exact List.mem_append_left _ hy

theorem stacked_named :
    stacked.root.Assigned ∧ stacked.Fits ∧
      ∃ o b, stacked.root.openers[1]? = some o ∧ stacked.root.bodies[1]? = some b ∧
        stacked.root.heredocBody? o = some b ∧
        ∃ content name, stacked.Spells b content ∧ Text.Trims content name ∧
          stacked.NamedBy o (String.ofList name) ∧ stacked.outline.map Entry.name = ["b"] := by
  have h : stacked.root.Assigned := ⟨by decide, by decide, by decide⟩
  have hf : stacked.Fits := by decide
  refine ⟨h, hf, _, _, rfl, rfl, ?_⟩
  obtain ⟨hown, _, _⟩ := opener_named_by_body stacked 1 _ _ h rfl rfl
  obtain ⟨hb, hn⟩ := hown (by decide) (by decide)
  obtain ⟨content, name, hs, ht, hn⟩ := hn hf (by decide)
  exact ⟨hb, content, name, hs, ht, hn, by decide⟩

-- Two examples on one line, each of them with a heredoc as its name.
def paired : Document where
  text := "it <<~A; it <<~B\n  a\nA\n  b\nB\n"
  hasErrors := false
  root := ⟨.other "program", 0, 29, true, false, none,
    [⟨.call, 0, 7, true, false, none,
      [⟨.identifier, 0, 2, true, false, some .method, []⟩,
       ⟨.other "argument_list", 3, 7, true, false, some .arguments,
        [⟨.heredocBeginning, 3, 7, true, false, none, []⟩]⟩]⟩,
     ⟨.other ";", 7, 8, false, false, none, []⟩,
     ⟨.call, 9, 16, true, false, none,
      [⟨.identifier, 9, 11, true, false, some .method, []⟩,
       ⟨.other "argument_list", 12, 16, true, false, some .arguments,
        [⟨.heredocBeginning, 12, 16, true, false, none, []⟩]⟩]⟩,
     ⟨.heredocBody, 16, 22, true, true, none,
      [⟨.heredocContent, 16, 21, true, false, none, []⟩,
       ⟨.other "heredoc_end", 21, 22, true, false, none, []⟩]⟩,
     ⟨.heredocBody, 22, 28, true, true, none,
      [⟨.heredocContent, 22, 27, true, false, none, []⟩,
       ⟨.other "heredoc_end", 27, 28, true, false, none, []⟩]⟩]⟩

-- The second example should be called `b`.
theorem paired_share_body :
    paired.root.Assigned ∧ paired.Fits ∧
      ∃ o c b, paired.root.openers[1]? = some o ∧ paired.root.bodies = [c, b] ∧
        paired.root.heredocBody? o = some c ∧ paired.root.heredocBody? o ≠ some b ∧
        paired.literal? b = some "\n  b\n".toList ∧ paired.outline.map Entry.name = ["a", "a"] := by
  refine ⟨⟨by decide, by decide, by decide⟩, by decide, _, _, _, rfl, rfl, rfl, ?_, by decide, by decide⟩
  intro h
  have := congrArg (Option.map Node.start) h
  revert this
  decide

end Document

end TestLens
