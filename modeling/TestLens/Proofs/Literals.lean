import Mathlib.Data.List.TakeWhile
import TestLens.Proofs.Search

namespace TestLens

namespace Text

variable {cs part : List Char} {start stop : Nat}

def size (cs : List Char) : Nat :=
  (cs.map Char.utf8Size).sum

@[simp] theorem size_nil : size [] = 0 := rfl

@[simp] theorem size_cons (c : Char) (cs : List Char) : size (c :: cs) = c.utf8Size + size cs := by
  simp [size]

@[simp] theorem size_append (xs ys : List Char) : size (xs ++ ys) = size xs + size ys := by
  simp [size]

theorem eq_nil_of_size_eq_zero (h : size cs = 0) : cs = [] := by
  cases cs
  case nil => rfl
  case cons c cs =>
    have := c.utf8Size_pos
    rw [size_cons] at h
    omega

-- The offset is in the text, and it does not fall inside of a character.
def Boundary (cs : List Char) (offset : Nat) : Prop :=
  ∃ before ∈ cs.inits, size before = offset

instance (cs : List Char) (offset : Nat) : Decidable (Boundary cs offset) :=
  inferInstanceAs (Decidable (∃ before ∈ cs.inits, _))

-- Some characters stand in the text, from one offset to another.
def Reaches (cs : List Char) (start stop : Nat) (part : List Char) : Prop :=
  ∃ before after, cs = before ++ part ++ after ∧ size before = start ∧ size (before ++ part) = stop

theorem dropBytes_append (before after : List Char) :
    dropBytes (size before) (before ++ after) = some after := by
  induction before
  case nil => simp [dropBytes]
  case cons c cs hi =>
    obtain ⟨n, hn⟩ := Nat.exists_eq_add_one.mpr (Nat.add_pos_left c.utf8Size_pos (size cs))
    rw [size_cons, List.cons_append, hn, dropBytes, if_pos (by omega), ← hn,
      Nat.add_sub_cancel_left, hi]

theorem takeBytes_append (part after : List Char) :
    takeBytes (size part) (part ++ after) = some part := by
  induction part
  case nil => simp [takeBytes]
  case cons c cs hi =>
    obtain ⟨n, hn⟩ := Nat.exists_eq_add_one.mpr (Nat.add_pos_left c.utf8Size_pos (size cs))
    rw [size_cons, List.cons_append, hn, takeBytes, if_pos (by omega), ← hn,
      Nat.add_sub_cancel_left, hi, Option.map_some]

theorem exists_of_dropBytes {n : Nat} {rest : List Char} (h : dropBytes n cs = some rest) :
    ∃ before, cs = before ++ rest ∧ size before = n := by
  fun_induction dropBytes n cs
  case case1 =>
    cases h
    exact ⟨[], rfl, rfl⟩
  case case2 => contradiction
  case case3 n c cs hc hi =>
    obtain ⟨before, hcs, hb⟩ := hi h
    exact ⟨c :: before, by rw [hcs, List.cons_append], by rw [size_cons]; omega⟩
  case case4 => contradiction

theorem exists_of_takeBytes {n : Nat} (h : takeBytes n cs = some part) :
    ∃ after, cs = part ++ after ∧ size part = n := by
  fun_induction takeBytes n cs generalizing part
  case case1 cs =>
    cases h
    exact ⟨cs, rfl, rfl⟩
  case case2 => contradiction
  case case3 n c cs hc hi =>
    obtain ⟨part', hp, rfl⟩ := Option.map_eq_some_iff.mp h
    obtain ⟨after, hcs, hs⟩ := hi hp
    exact ⟨after, by rw [hcs, List.cons_append], by rw [size_cons]; omega⟩
  case case4 => contradiction

theorem slice?_eq_some_iff : slice? cs start stop = some part ↔ Reaches cs start stop part := by
  constructor
  case mp =>
    intro h
    unfold slice? at h
    split at h
    case isTrue hle =>
      obtain ⟨rest, hd, ht⟩ := Option.bind_eq_some_iff.mp h
      obtain ⟨before, rfl, hb⟩ := exists_of_dropBytes hd
      obtain ⟨after, rfl, hp⟩ := exists_of_takeBytes ht
      exact ⟨before, after, by simp, hb, by rw [size_append]; omega⟩
    case isFalse => contradiction
  case mpr =>
    rintro ⟨before, after, rfl, rfl, rfl⟩
    rw [slice?, size_append, if_pos (Nat.le_add_right ..), Nat.add_sub_cancel_left,
      List.append_assoc, dropBytes_append, Option.bind_some, takeBytes_append]

theorem prefix_of_size_le {xs ys : List Char} (hx : xs <+: cs) (hy : ys <+: cs)
    (h : size xs ≤ size ys) : xs <+: ys := by
  cases List.prefix_or_prefix_of_prefix hx hy
  case inl hp => exact hp
  case inr hp =>
    obtain ⟨zs, rfl⟩ := hp
    have hz : zs = [] := by
      apply eq_nil_of_size_eq_zero
      rw [size_append] at h
      omega
    simp [hz]

theorem eq_of_prefix_of_size_eq {xs ys : List Char} (hx : xs <+: cs) (hy : ys <+: cs)
    (h : size xs = size ys) : xs = ys := by
  have hl := prefix_of_size_le hx hy h.le
  have hr := prefix_of_size_le hy hx h.ge
  exact hl.eq_of_length (Nat.le_antisymm hl.length_le hr.length_le)

theorem exists_reaches (hs : Boundary cs start) (ht : Boundary cs stop) (hle : start ≤ stop) :
    ∃ part, Reaches cs start stop part := by
  obtain ⟨xs, hx, rfl⟩ := hs
  obtain ⟨ys, hy, rfl⟩ := ht
  have hy := (List.mem_inits _ _).mp hy
  have hp := prefix_of_size_le ((List.mem_inits _ _).mp hx) hy hle
  obtain ⟨part, rfl⟩ := hp
  obtain ⟨after, rfl⟩ := hy
  exact ⟨part, xs, after, rfl, rfl, rfl⟩

theorem Reaches.append {mid : Nat} {part' : List Char} (h : Reaches cs start mid part)
    (h' : Reaches cs mid stop part') : Reaches cs start stop (part ++ part') := by
  obtain ⟨before, after, hcs, hb, hp⟩ := h
  obtain ⟨before', after', hcs', hb', hp'⟩ := h'
  have hl : before ++ part <+: cs := ⟨after, hcs.symm⟩
  have hr : before' <+: cs := ⟨part' ++ after', by rw [hcs', List.append_assoc]⟩
  have he : before ++ part = before' := eq_of_prefix_of_size_eq hl hr (hp.trans hb'.symm)
  subst he
  exact ⟨before, after', by simp [hcs'], hb, by rw [← List.append_assoc, hp']⟩

theorem Reaches.unique {part' : List Char} (h : Reaches cs start stop part)
    (h' : Reaches cs start stop part') : part = part' := by
  rw [← slice?_eq_some_iff] at h h'
  exact Option.some.inj (h.symm.trans h')

-- Blanks surround the trimmed text, and it neither starts nor ends with one.
structure Trims (cs trimmed : List Char) : Prop where
  surrounded : ∃ before after, cs = before ++ trimmed ++ after ∧
    ∀ c ∈ before ++ after, isBlank c
  starts : ∀ c ∈ trimmed.head?, ¬ isBlank c
  ends : ∀ c ∈ trimmed.getLast?, ¬ isBlank c

theorem not_isBlank_of_mem_head? {c : Char} (cs : List Char)
    (h : c ∈ (cs.dropWhile isBlank).head?) : ¬ isBlank c := by
  have hn := List.head?_dropWhile_not isBlank cs
  rw [Option.mem_def.mp h] at hn
  simpa using hn

theorem trim_trims (cs : List Char) : Trims cs (trim cs) := by
  have hs : cs = cs.takeWhile isBlank ++ trimStart cs := List.takeWhile_append_dropWhile.symm
  have he : trimStart cs = trim cs ++ ((trimStart cs).reverse.takeWhile isBlank).reverse := by
    rw [trim, trimEnd, ← List.reverse_append, List.takeWhile_append_dropWhile, List.reverse_reverse]
  constructor
  case surrounded =>
    refine ⟨cs.takeWhile isBlank, ((trimStart cs).reverse.takeWhile isBlank).reverse, ?_, ?_⟩
    case refine_1 => rw [List.append_assoc, ← he, ← hs]
    case refine_2 =>
      intro c hc
      cases List.mem_append.mp hc
      case inl hc => exact List.mem_takeWhile_imp hc
      case inr hc => exact List.mem_takeWhile_imp (List.mem_reverse.mp hc)
  case starts =>
    intro c hc
    apply not_isBlank_of_mem_head? cs
    change c ∈ (trimStart cs).head?
    rw [he, List.head?_append, Option.mem_def.mp hc]
    rfl
  case ends =>
    intro c hc
    rw [trim, trimEnd, List.getLast?_reverse] at hc
    exact not_isBlank_of_mem_head? _ hc

end Text

namespace Node

def Interpolates (n : Node) : Prop :=
  ∃ c ∈ n.namedChildren, c.kind = .interpolation

instance (n : Node) : Decidable n.Interpolates :=
  inferInstanceAs (Decidable (∃ c ∈ n.namedChildren, _))

def parts (n : Node) : List Node :=
  n.namedChildren.filter Document.isContent

end Node

namespace Document

variable {d : Document} {n : Node} {content : List Char}

-- All offsets of the tree are in the text and on character boundaries.
def Fits (d : Document) : Prop :=
  ∀ n ∈ d.root.preorder,
    Text.Boundary d.text.toList n.start ∧ Text.Boundary d.text.toList n.stop

instance (d : Document) : Decidable d.Fits :=
  inferInstanceAs (Decidable (∀ n ∈ d.root.preorder, _))

structure Spells (d : Document) (n : Node) (content : List Char) : Prop where
  empty : n.parts = [] → content = []
  spans : ∀ first ∈ n.parts.head?, ∀ last ∈ n.parts.getLast?,
    Text.Reaches d.text.toList first.start last.stop content
  joined : (n.parts.IsChain fun a b => a.stop = b.start) →
    content = n.parts.flatMap fun c => (d.textOf c).toList

theorem textOf_reaches (hw : d.root.WellNested) (hf : d.Fits) (hn : n ∈ d.root.preorder) :
    Text.Reaches d.text.toList n.start n.stop (d.textOf n).toList := by
  obtain ⟨hs, ht⟩ := hf n hn
  obtain ⟨text, hr⟩ := Text.exists_reaches hs ht (hw n hn).left
  have ht : (d.textOf n).toList = text := by
    simp [textOf, Text.slice?_eq_some_iff.mpr hr]
  exact ht ▸ hr

theorem mem_children_of_mem_parts {c : Node} (hc : c ∈ n.parts) : c ∈ n.children :=
  List.mem_of_mem_filter (List.mem_of_mem_filter hc)

theorem start_le_stop_of_parts (hw : d.root.WellNested) (hn : n ∈ d.root.preorder)
    {first last : Node} (hfirst : first ∈ n.parts.head?) (hlast : last ∈ n.parts.getLast?) :
    first.start ≤ last.stop := by
  have hs : ∀ c ∈ n.children, c.start ≤ c.stop :=
    fun c hc => (hw c (Node.mem_preorder_child hc hn)).left
  have hp : n.parts.Pairwise fun a b => a.stop ≤ b.start :=
    ((Node.pairwise_of_isChain (hw n hn).right.right hs).filter _).filter _
  have hfirst' := hs first (mem_children_of_mem_parts (List.mem_of_mem_head? hfirst))
  have hlast' := hs last (mem_children_of_mem_parts (List.mem_of_mem_getLast? hlast))
  cases hparts : n.parts
  case nil => simp [hparts] at hfirst
  case cons c cs =>
    rw [hparts] at hfirst hlast hp
    cases Option.some.inj hfirst
    cases List.mem_cons.mp (List.mem_of_mem_getLast? hlast)
    case inl he => exact he ▸ hlast'
    case inr hm =>
      have := List.rel_of_pairwise_cons hp hm
      omega

-- Nodes without gaps between them make up the text from the first of them to the last.
theorem reaches_flatMap {cs : List Char} {text : Node → List Char} (first : Node) (rest : List Node)
    (ht : ∀ c ∈ first :: rest, Text.Reaches cs c.start c.stop (text c))
    (hc : (first :: rest).IsChain fun a b => a.stop = b.start) :
    ∀ last ∈ (first :: rest).getLast?,
      Text.Reaches cs first.start last.stop ((first :: rest).flatMap text) := by
  induction rest generalizing first
  case nil =>
    intro last hlast
    cases Option.some.inj hlast
    simpa using ht first (List.mem_cons_self ..)
  case cons next rest hi =>
    intro last hlast
    obtain ⟨he, hc⟩ := List.isChain_cons_cons.mp hc
    have hi := hi next (fun c hm => ht c (List.mem_cons_of_mem _ hm)) hc last hlast
    have hr := ht first (List.mem_cons_self ..)
    rw [he] at hr
    exact hr.append hi

theorem literal?_of_interpolates (h : n.Interpolates) : d.literal? n = none := by
  rw [literal?, if_pos (by simpa [Node.Interpolates] using h)]

theorem literal?_eq_slice? (h : ¬ n.Interpolates) {first last : Node}
    (hfirst : first ∈ n.parts.head?) (hlast : last ∈ n.parts.getLast?) :
    d.literal? n = Text.slice? d.text.toList first.start last.stop := by
  -- The loop over the children keeps where the first part starts and where the last one ends.
  rw [literal?, if_neg (by simpa [Node.Interpolates] using h)]
  split
  case h_1 hp => simp [Node.parts, hp] at hfirst
  case h_2 c cs hp =>
    rw [Node.parts, hp] at hfirst hlast
    cases Option.some.inj hfirst
    rw [List.getLast?_eq_getLast_of_ne_nil (by simp)] at hlast
    cases Option.some.inj hlast
    rfl

theorem literal?_of_parts_eq_nil (h : ¬ n.Interpolates) (hp : n.parts = []) :
    d.literal? n = some [] := by
  rw [Node.parts] at hp
  rw [literal?, if_neg (by simpa [Node.Interpolates] using h), hp]

theorem exists_spells (hw : d.root.WellNested) (hf : d.Fits) (hn : n ∈ d.root.preorder)
    (h : ¬ n.Interpolates) : ∃ content, d.literal? n = some content ∧ d.Spells n content := by
  have hm : ∀ c ∈ n.parts, c ∈ d.root.preorder :=
    fun c hc => Node.mem_preorder_child (mem_children_of_mem_parts hc) hn
  cases hp : n.parts
  case nil => exact ⟨[], literal?_of_parts_eq_nil h hp, ⟨fun _ => rfl, by simp [hp], by simp [hp]⟩⟩
  case cons first rest =>
    have hfirst : first ∈ n.parts.head? := by simp [hp]
    obtain ⟨last, hlast⟩ : ∃ last, last ∈ n.parts.getLast? :=
      ⟨_, List.getLast?_eq_getLast_of_ne_nil (by simp [hp])⟩
    have hs := (hf first (hm first (List.mem_of_mem_head? hfirst))).left
    have ht := (hf last (hm last (List.mem_of_mem_getLast? hlast))).right
    obtain ⟨content, hr⟩ := Text.exists_reaches hs ht (start_le_stop_of_parts hw hn hfirst hlast)
    refine ⟨content, ?_, ?_, ?_, ?_⟩
    case refine_1 => rw [literal?_eq_slice? h hfirst hlast, Text.slice?_eq_some_iff.mpr hr]
    case refine_2 => simp [hp]
    case refine_3 =>
      intro first' hfirst' last' hlast'
      cases Option.some.inj (hfirst.symm.trans hfirst')
      cases Option.some.inj (hlast.symm.trans hlast')
      exact hr
    case refine_4 =>
      intro hc
      have hj : Text.Reaches d.text.toList first.start last.stop
          (n.parts.flatMap fun c => (d.textOf c).toList) := by
        rw [hp] at hc hlast hm ⊢
        exact reaches_flatMap first rest (fun c hcm => textOf_reaches hw hf (hm c hcm)) hc last hlast
      exact hr.unique hj

-- How an argument is read off a node whose children hold its text. For a heredoc that node is the
-- body, and the text is trimmed.
theorem argument_of_literal (hw : d.root.WellNested) (hf : d.Fits) {m : Node}
    (hm : m ∈ d.root.preorder) {finish : List Char → List Char}
    (ha : d.argument n = (d.literal? m).elim (.other (d.textOf n))
      fun content => .string (String.ofList (finish content))) :
    (d.argument n = .other (d.textOf n) ↔ m.Interpolates) ∧
      (¬ m.Interpolates →
        ∃ content, d.Spells m content ∧ d.argument n = .string (String.ofList (finish content))) := by
  have hs (h : ¬ m.Interpolates) :
      ∃ content, d.Spells m content ∧ d.argument n = .string (String.ofList (finish content)) := by
    obtain ⟨content, hl, hs⟩ := exists_spells hw hf hm h
    exact ⟨content, hs, by rw [ha, hl, Option.elim_some]⟩
  refine ⟨⟨?_, ?_⟩, hs⟩
  case refine_1 =>
    intro ho
    by_contra h
    obtain ⟨content, _, hc⟩ := hs h
    rw [ho] at hc
    contradiction
  case refine_2 =>
    intro h
    rw [ha, literal?_of_interpolates h, Option.elim_none]

theorem argument_of_string (hk : n.kind = .string) :
    d.argument n = (d.literal? n).elim (.other (d.textOf n))
      fun content => .string (String.ofList content) := by
  cases hl : d.literal? n <;> simp [argument, hk, hl]

theorem argument_of_opener (hk : n.kind = .heredocBeginning) {body : Node}
    (hb : d.root.heredocBody? n = some body) :
    d.argument n = (d.literal? body).elim (.other (d.textOf n))
      fun content => .string (String.ofList (Text.trim content)) := by
  cases hl : d.literal? body <;> simp [argument, hk, hb, hl]

-- No text is ever missing: a string or a heredoc with a body is a literal unless it interpolates.
theorem argument_exact (d : Document) (n : Node) (hw : d.root.WellNested) (hf : d.Fits)
    (hn : n ∈ d.root.preorder) :
    Text.Reaches d.text.toList n.start n.stop (d.textOf n).toList ∧
      (n.kind = .string →
        (d.argument n = .other (d.textOf n) ↔ n.Interpolates) ∧
          (¬ n.Interpolates →
            ∃ content, d.Spells n content ∧ d.argument n = .string (String.ofList content))) ∧
      (n.kind = .heredocBeginning → ∀ body, d.root.heredocBody? n = some body →
        (d.argument n = .other (d.textOf n) ↔ body.Interpolates) ∧
          (¬ body.Interpolates →
            ∃ content name, d.Spells body content ∧ Text.Trims content name ∧
              d.argument n = .string (String.ofList name))) := by
  refine ⟨textOf_reaches hw hf hn, ?_, ?_⟩
  case refine_1 =>
    intro hk
    exact argument_of_literal hw hf hn (argument_of_string hk)
  case refine_2 =>
    intro hk body hb
    obtain ⟨hi, hs⟩ :=
      argument_of_literal hw hf (Node.body_of_heredocBody? hb).left (argument_of_opener hk hb)
    refine ⟨hi, fun h => ?_⟩
    obtain ⟨content, hc, ha⟩ := hs h
    exact ⟨content, Text.trim content, hc, Text.trim_trims content, ha⟩

-- A string with a character of two bytes and an escape, and a heredoc whose text has a no-break
-- space before it and an ideographic one behind.
def spelled : Document where
  text := "it \"é\\n\"\nit <<~D\n\u00a0b\u3000\nD\n"
  hasErrors := false
  root := ⟨.other "program", 0, 27, true, false, none,
    [⟨.call, 0, 9, true, false, none,
      [⟨.identifier, 0, 2, true, false, some .method, []⟩,
       ⟨.other "argument_list", 3, 9, true, false, some .arguments,
        [⟨.string, 3, 9, true, false, none,
          [⟨.other "\"", 3, 4, false, false, none, []⟩,
           ⟨.stringContent, 4, 6, true, false, none, []⟩,
           ⟨.escapeSequence, 6, 8, true, false, none, []⟩,
           ⟨.other "\"", 8, 9, false, false, none, []⟩]⟩]⟩]⟩,
     ⟨.call, 10, 17, true, false, none,
      [⟨.identifier, 10, 12, true, false, some .method, []⟩,
       ⟨.other "argument_list", 13, 17, true, false, some .arguments,
        [⟨.heredocBeginning, 13, 17, true, false, none, []⟩]⟩]⟩,
     ⟨.heredocBody, 17, 26, true, true, none,
      [⟨.heredocContent, 17, 25, true, false, none, []⟩,
       ⟨.other "heredoc_end", 25, 26, true, false, none, []⟩]⟩]⟩

theorem spelled_exact :
    (∃ n, spelled.root.at? [0, 1, 0] = some n ∧ n.kind = .string ∧ ¬ n.Interpolates ∧
        ∃ content, spelled.Spells n content ∧
          spelled.argument n = .string (String.ofList content) ∧ String.ofList content = "é\\n") ∧
      ∃ n body, spelled.root.at? [0, 1, 1] = some n ∧ n.kind = .heredocBeginning ∧
        spelled.root.heredocBody? n = some body ∧ ¬ body.Interpolates ∧
        ∃ content name, spelled.Spells body content ∧ Text.Trims content name ∧
          spelled.argument n = .string (String.ofList name) ∧ String.ofList name = "b" := by
  have hw : spelled.root.WellNested := by decide
  have hf : spelled.Fits := by decide
  constructor
  case left =>
    refine ⟨_, rfl, rfl, by decide, ?_⟩
    obtain ⟨_, hs, _⟩ := argument_exact spelled _ hw hf (Node.mem_preorder_of_at? (a := [0, 1, 0]) rfl)
    obtain ⟨content, hc, ha⟩ := (hs rfl).right (by decide)
    refine ⟨content, hc, ha, ?_⟩
    exact Argument.string.inj (ha.symm.trans (by decide))
  case right =>
    refine ⟨_, _, rfl, rfl, rfl, by decide, ?_⟩
    obtain ⟨_, _, ho⟩ := argument_exact spelled _ hw hf (Node.mem_preorder_of_at? (a := [0, 1, 1]) rfl)
    obtain ⟨content, name, hc, ht, ha⟩ := (ho rfl _ rfl).right (by decide)
    refine ⟨content, name, hc, ht, ha, ?_⟩
    exact Argument.string.inj (ha.symm.trans (by decide))

end Document

end TestLens
