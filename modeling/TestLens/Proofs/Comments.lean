import Mathlib.Data.List.Forall2
import TestLens.Disk.Volume
import TestLens.Proofs.Events
import TestLens.Proofs.Search
import TestLens.Workspace

universe u

namespace TestLens

namespace Node

-- A comment with nothing below it that is no part of a call.
def isRemark (n : Node) : Bool :=
  n.kind = .comment && n.extra && n.field = none && n.children.isEmpty

-- The node at `a` without what stands at the addresses of `gone` below it.
def withoutFrom (gone : List Address) (a : Address) : Node → Node
  | ⟨kind, start, stop, named, extra, field, children⟩ =>
    ⟨kind, start, stop, named, extra, field, below a 0 children⟩
where
  below (a : Address) (i : Nat) : List Node → List Node
    | [] => []
    | c :: cs =>
      if i :: a ∈ gone then below a (i + 1) cs
      else c.withoutFrom gone (i :: a) :: below a (i + 1) cs

def without (n : Node) (gone : List Address) : Node :=
  n.withoutFrom gone []

theorem withoutFrom_eq (gone : List Address) (a : Address) (n : Node) :
    n.withoutFrom gone a = { n with children := withoutFrom.below gone a 0 n.children } := by
  cases n; rfl

-- The second list of siblings is the first one without some remarks, at any depth.
inductive Stripped : List Node → List Node → Prop
  | nil : Stripped [] []
  | drop {n : Node} {ns ns' : List Node} : n.isRemark → Stripped ns ns' → Stripped (n :: ns) ns'
  | keep {n : Node} {cs ns ns' : List Node} : Stripped n.children cs → Stripped ns ns' →
      Stripped (n :: ns) ({ n with children := cs } :: ns')

def StripsTo (n n' : Node) : Prop :=
  ∃ cs, Stripped n.children cs ∧ n' = { n with children := cs }

-- Taking out what stands at the addresses of remarks takes out remarks.
theorem stripsTo_withoutFrom {root n : Node} {gone : List Address} {a : Address}
    (hg : ∀ a ∈ gone, (root.at? a).any isRemark) (hn : root.at? a = some n) :
    n.StripsTo (n.withoutFrom gone a) := by
  induction a, n, hn using Node.induction_at fun a i ns =>
    Stripped ns (withoutFrom.below gone a i ns)
  case node a n _ hi => exact ⟨_, hi, n.withoutFrom_eq gone a⟩
  case nil => exact .nil
  case cons a i n ns hn hm hi =>
    rw [withoutFrom.below]
    split
    case isTrue hm =>
      have hr := hg _ hm
      rw [hn] at hr
      exact .drop hr hi
    case isFalse =>
      have ⟨cs, hc, he⟩ := hm
      exact he ▸ .keep hc hi

theorem isRemark_iff {n : Node} :
    n.isRemark ↔ n.kind = .comment ∧ n.extra ∧ n.field = none ∧ n.children = [] := by
  simp [isRemark, and_assoc]

-- What is found out about a node without a look at its children.
def Shallow {α : Type} (f : Node → α) : Prop :=
  ∀ n cs, f { n with children := cs } = f n

namespace Stripped

variable {ns ns' : List Node} {p : Node → Bool}

theorem filter (h : Stripped ns ns') (hp : Shallow p) (hr : ∀ n, n.isRemark → p n = false) :
    List.Forall₂ StripsTo (ns.filter p) (ns'.filter p) := by
  -- A choice of siblings that looks at no children and takes no remarks makes the same choice after
  -- remarks are taken out.
  induction h
  case nil => exact .nil
  case drop hn _ hi => simpa [hr _ hn] using hi
  case keep n cs _ _ hc _ _ hi =>
    cases hn : p n
    case false => simpa [hp n cs, hn] using hi
    case true => simpa [hp n cs, hn] using ⟨⟨cs, hc, rfl⟩, hi⟩

end Stripped

namespace StripsTo

variable {n n' : Node}

theorem shallow {α : Type} {f : Node → α} (h : n.StripsTo n') (hf : Shallow f) : f n' = f n := by
  obtain ⟨cs, _, rfl⟩ := h
  exact hf n cs

theorem start_eq (h : n.StripsTo n') : n'.start = n.start :=
  h.shallow fun _ _ => rfl

theorem stop_eq (h : n.StripsTo n') : n'.stop = n.stop :=
  h.shallow fun _ _ => rfl

theorem kind_eq (h : n.StripsTo n') : n'.kind = n.kind :=
  h.shallow fun _ _ => rfl

theorem filter_children (h : n.StripsTo n') {p : Node → Bool} (hp : Shallow p)
    (hr : ∀ n, n.isRemark → p n = false) :
    List.Forall₂ StripsTo (n.children.filter p) (n'.children.filter p) := by
  obtain ⟨cs, hc, rfl⟩ := h
  exact hc.filter hp hr

theorem any_children (h : n.StripsTo n') {p : Node → Bool} (hp : Shallow p)
    (hr : ∀ n, n.isRemark → p n = false) : n'.children.any p = n.children.any p := by
  have hl := (h.filter_children hp hr).length_eq
  rw [← List.countP_eq_length_filter, ← List.countP_eq_length_filter] at hl
  rw [Bool.eq_iff_iff, List.any_eq_true, List.any_eq_true, ← List.countP_pos_iff,
    ← List.countP_pos_iff, hl]

theorem head? {ns ns' : List Node} (h : List.Forall₂ StripsTo ns ns') :
    Option.Rel StripsTo ns.head? ns'.head? := by
  cases h
  case nil => exact .none
  case cons h _ => exact .some h

theorem getLast {ns ns' : List Node} (h : List.Forall₂ StripsTo ns ns') (hn : ns ≠ [])
    (hn' : ns' ≠ []) : (ns.getLast hn).StripsTo (ns'.getLast hn') := by
  induction h
  case nil => contradiction
  case cons h hs hi =>
    cases hs
    case nil => exact h
    case cons => simpa using hi

theorem map_eq {α : Type} {f g : Node → α} {x x' : Option Node} (h : Option.Rel StripsTo x x')
    (hfg : ∀ {n n' : Node}, n.StripsTo n' → g n' = f n) : x'.map g = x.map f := by
  cases h
  case none => rfl
  case some h => simp [hfg h]

theorem child? (h : n.StripsTo n') (field : Field) :
    Option.Rel StripsTo (n.child? field) (n'.child? field) := by
  rw [Node.child?, Node.child?, ← List.head?_filter, ← List.head?_filter]
  refine head? (h.filter_children (fun _ _ => rfl) fun n hn => ?_)
  simp [(isRemark_iff.mp hn).right.right.left]

end StripsTo

theorem bodyFrom?_of_isRemark {n : Node} (h : n.isRemark) (offset : Nat) :
    n.bodyFrom? offset = none := by
  have ⟨hk, _, _, hc⟩ := isRemark_iff.mp h
  cases n
  simp_all [bodyFrom?, bodyFrom?.among]

theorem StripsTo.or {x x' y y' : Option Node} (hx : Option.Rel StripsTo x x')
    (hy : Option.Rel StripsTo y y') : Option.Rel StripsTo (x.or y) (x'.or y') := by
  cases hx
  case some h => exact .some h
  case none => exact hy

theorem StripsTo.bodyFrom?_of_among {n : Node} {cs : List Node} {offset : Nat}
    (h : Stripped n.children cs)
    (ha : Option.Rel StripsTo (bodyFrom?.among offset n.children) (bodyFrom?.among offset cs)) :
    Option.Rel StripsTo (n.bodyFrom? offset) (bodyFrom? offset { n with children := cs }) := by
  simp only [bodyFrom?_eq]
  split
  case isTrue =>
    split
    case isTrue => exact .some ⟨cs, h, rfl⟩
    case isFalse => exact .none
  case isFalse =>
    split
    case isTrue => exact ha
    case isFalse => exact .none

theorem Stripped.among {ns ns' : List Node} (h : Stripped ns ns') (offset : Nat) :
    Option.Rel StripsTo (bodyFrom?.among offset ns) (bodyFrom?.among offset ns') := by
  induction h
  case nil => exact .none
  case drop hn _ hi => simpa [among_cons, bodyFrom?_of_isRemark hn] using hi
  case keep hc _ ha hi =>
    rw [among_cons, among_cons]
    exact StripsTo.or (StripsTo.bodyFrom?_of_among hc ha) hi

theorem StripsTo.bodyFrom? {n n' : Node} (h : n.StripsTo n') (offset : Nat) :
    Option.Rel StripsTo (n.bodyFrom? offset) (n'.bodyFrom? offset) := by
  obtain ⟨cs, hc, rfl⟩ := h
  exact bodyFrom?_of_among hc (hc.among offset)

end Node

namespace Document

open Node (StripsTo Shallow isRemark isRemark_iff)

variable {d : Document} {root n n' : Node}

theorem textOf_eq (root : Node) (h : n.StripsTo n') :
    textOf { d with root } n' = d.textOf n := by
  obtain ⟨cs, _, rfl⟩ := h
  rfl

theorem literal?_eq (root : Node) (h : n.StripsTo n') :
    literal? { d with root } n' = d.literal? n := by
  have ha : n'.namedChildren.any (fun c => c.kind = .interpolation) =
      n.namedChildren.any fun c => c.kind = .interpolation := by
    simp only [Node.namedChildren, List.any_filter]
    exact h.any_children (fun _ _ => rfl) fun n hn => by simp [(isRemark_iff.mp hn).left]
  have hf : List.Forall₂ StripsTo (n.namedChildren.filter isContent)
      (n'.namedChildren.filter isContent) := by
    simp only [Node.namedChildren, List.filter_filter]
    exact h.filter_children (fun _ _ => rfl) fun n hn => by
      simp [isContent, (isRemark_iff.mp hn).left]
  rw [literal?, literal?, ha]
  split
  case isTrue => rfl
  case isFalse =>
    revert hf
    generalize n.namedChildren.filter isContent = xs, n'.namedChildren.filter isContent = ys
    intro hf
    have hl := StripsTo.getLast hf
    cases hf
    case nil => rfl
    case cons hx hs =>
      simp [hx.start_eq, (hl (by simp) (by simp)).stop_eq]

-- The body of a heredoc is looked for in the whole tree, so remarks may be missing there, too.
theorem argument_eq (hd : d.root.StripsTo root) (h : n.StripsTo n') :
    argument { d with root } n' = d.argument n := by
  have hb : (root.bodyFrom? n.stop).bind (literal? { d with root }) =
      (d.root.bodyFrom? n.stop).bind d.literal? := by
    have hl := StripsTo.map_eq (hd.bodyFrom? n.stop) (literal?_eq (d := d) root)
    simpa [Option.bind_map] using congrArg (Option.bind · id) hl
  have hm := StripsTo.map_eq (h.child? .method) (textOf_eq (d := d) root)
  unfold argument
  rw [h.kind_eq, textOf_eq root h, literal?_eq root h]
  simp only [Node.heredocBody?_eq_bodyFrom?, h.stop_eq, hb]
  split
  case _ => rfl
  case _ => rfl
  case _ =>
    cases hc : n.child? .method
    all_goals cases hc' : n'.child? .method
    all_goals simp_all
  all_goals rfl

theorem extent_eq (root : Node) (h : n.StripsTo n') : extent { d with root } n' = d.extent n := by
  simp only [extent, h.start_eq, h.stop_eq]

-- Remarks are extra, and nothing extra is handed over.
theorem handedOver_strips (h : n.StripsTo n') :
    List.Forall₂ StripsTo (handedOver n) (handedOver n') := by
  have ha := h.child? .arguments
  unfold handedOver
  revert ha
  generalize n.child? .arguments = x, n'.child? .arguments = x'
  intro ha
  cases ha
  case none => exact .nil
  case some ha =>
    simp only [Node.namedChildren, List.filter_filter]
    exact ha.filter_children (fun _ _ => rfl) fun n hn => by simp [(isRemark_iff.mp hn).right.left]

theorem any_isBlockArgument_eq {ns ns' : List Node} (h : List.Forall₂ StripsTo ns ns') :
    ns'.any isBlockArgument = ns.any isBlockArgument := by
  induction h
  case nil => rfl
  case cons h _ hi => simp [isBlockArgument, h.kind_eq, hi]

theorem callOf_eq (hd : d.root.StripsTo root) (h : n.StripsTo n') :
    callOf { d with root } n' = d.callOf n := by
  have hf : List.Forall₂ StripsTo ((handedOver n).filter fun c => !isBlockArgument c)
      ((handedOver n').filter fun c => !isBlockArgument c) := by
    refine List.rel_filter ?_ (handedOver_strips h)
    intro m m' hm
    simp [isBlockArgument, hm.kind_eq]
  have hb : (n'.child? .block).isSome = (n.child? .block).isSome := by
    simpa using congrArg Option.isSome (StripsTo.map_eq (h.child? .block) fun hm => hm.kind_eq)
  have hr := StripsTo.map_eq (h.child? .receiver) (textOf_eq (d := d) root)
  have ha := StripsTo.map_eq (StripsTo.head? hf) (argument_eq hd)
  funext method
  simp only [callOf, hr, ha, hb, extent_eq root h, ← hf.length_eq,
    any_isBlockArgument_eq (handedOver_strips h)]

theorem call?_eq (hd : d.root.StripsTo root) (h : n.StripsTo n') :
    call? { d with root } n' = d.call? n := by
  have hm := StripsTo.map_eq (h.child? .method) (textOf_eq (d := d) root)
  rw [call?, h.kind_eq, hm, callOf_eq hd h, call?]

end Document

namespace Walk

open Node (StripsTo Stripped isRemark isRemark_iff)

variable {σ : Type u} {d : Document} {root : Node}

theorem visit_of_isRemark {n : Node} (h : n.isRemark) (visitor : Visitor σ) (s : σ) :
    visit d visitor s n = (s, .finished) := by
  have ⟨hk, _, _, hc⟩ := isRemark_iff.mp h
  have hn : d.call? n = none := by simp [Document.call?, hk]
  rw [visit_eq_visitAll hn, hc]
  rfl

theorem visit_of_visitAll (hd : d.root.StripsTo root) {visitor : Visitor σ} {n : Node}
    {cs : List Node} (h : Stripped n.children cs)
    (hv : ∀ s, visit.visitAll { d with root } visitor s cs =
      visit.visitAll d visitor s n.children) (s : σ) :
    visit { d with root } visitor s { n with children := cs } = visit d visitor s n := by
  have hc := Document.call?_eq hd ⟨cs, h, rfl⟩
  cases hn : d.call? n
  case none => rw [visit_eq_visitAll hn, visit_eq_visitAll (hc.trans hn), hv]
  case some call => simp only [visit_of_call hn, visit_of_call (hc.trans hn), hv]

theorem visitAll_stripped (hd : d.root.StripsTo root) {ns ns' : List Node} (h : Stripped ns ns')
    (visitor : Visitor σ) (s : σ) :
    visit.visitAll { d with root } visitor s ns' = visit.visitAll d visitor s ns := by
  -- A remark tells a visitor nothing, and the other nodes tell it what they told it before.
  induction h generalizing s
  case nil => rfl
  case drop hn _ hi => rw [hi, visit.visitAll, visit_of_isRemark hn, andThen]
  case keep hc _ hv hi => simp only [visit.visitAll, visit_of_visitAll hd hc hv, hi]

theorem visit_stripsTo (hd : d.root.StripsTo root) {n n' : Node} (h : n.StripsTo n')
    (visitor : Visitor σ) (s : σ) : visit { d with root } visitor s n' = visit d visitor s n := by
  obtain ⟨cs, hc, rfl⟩ := h
  exact visit_of_visitAll hd hc (visitAll_stripped hd hc visitor) s

end Walk

namespace Document

theorem collect_without (d : Document) (gone : List Address)
    (hg : ∀ a ∈ gone, (d.root.at? a).any Node.isRemark) (subject : Subject) (sink : Array Lens) :
    collect { d with root := d.root.without gone } subject sink = d.collect subject sink := by
  have hd : d.root.StripsTo (d.root.without gone) := Node.stripsTo_withoutFrom hg rfl
  simp only [collect, walk, walkFrom_eq_visit, Walk.visit_stripsTo hd hd]

end Document

namespace Workspace

-- The second parser gives the tree of the first one without any remarks that one likes.
theorem collect_without_remarks (disk : Disk) (parser parser' : Parser) (root file : String)
    (options : Options) (source : String) (parse : Parse) (gone : List Address)
    (hg : ∀ a ∈ gone, (parse.root.at? a).any Node.isRemark)
    (hp : parser source = some parse)
    (hp' : parser' source = some { parse with root := parse.root.without gone }) :
    collect disk parser' root file options source =
      collect disk parser root file options source := by
  have hc := Document.collect_without { parse with text := source } gone hg
  simp only [collect, collectInto, hp, hp']
  cases relative root file
  case error => rfl
  case ok => simp only [hc]

-- A group with a comment before it, one in its chain of calls, one in its argument list, and one
-- between the opener of its name and the body, where its block starts.
def remarked : Document where
  text := "# top\nRSpec # on\n.describe(# why\n<<~D) \x7b # in\n  a\nD\nit() \x7d\n"
  hasErrors := false
  root := ⟨.other "program", 0, 59, true, false, none,
    [⟨.comment, 0, 5, true, true, none, []⟩,
     ⟨.call, 6, 58, true, false, none,
      [⟨.constant, 6, 11, true, false, some .receiver, []⟩,
       ⟨.comment, 12, 16, true, true, none, []⟩,
       ⟨.identifier, 18, 26, true, false, some .method, []⟩,
       ⟨.other "argument_list", 26, 38, true, false, some .arguments,
        [⟨.comment, 27, 32, true, true, none, []⟩,
         ⟨.heredocBeginning, 33, 37, true, false, none, []⟩]⟩,
       ⟨.other "block", 39, 58, true, false, some .block,
        [⟨.comment, 41, 45, true, true, none, []⟩,
         ⟨.heredocBody, 45, 51, true, true, none,
          [⟨.heredocContent, 45, 50, true, false, none, []⟩]⟩,
         ⟨.call, 52, 56, true, false, none,
          [⟨.identifier, 52, 54, true, false, some .method, []⟩]⟩]⟩]⟩]⟩

def remarks : List Address :=
  [[0], [1, 1], [0, 3, 1], [0, 4, 1]]

def unremarked : Parse :=
  { remarked.toParse with root := remarked.root.without remarks }

def collectRemarked (parse : Parse) : Run (List Lens) :=
  collect Volume.empty.disk (fun _ => some parse) "/w" "/w/a_spec.rb" ⟨some "rspec", true⟩
    remarked.text

theorem remarked_collects :
    unremarked.root.preorder.length + 4 = remarked.root.preorder.length ∧
      collectRemarked unremarked = collectRemarked remarked.toParse ∧
      (collectRemarked unremarked).result.toOption.map
          (fun lenses => lenses.map fun lens => (lens.arguments.name, lens.data.group)) =
        some [("a", none), ("a", none), ("a", none),
          ("<unnamed-1>", some ⟨1⟩), ("<unnamed-1>", some ⟨1⟩), ("<unnamed-1>", some ⟨1⟩)] := by
  refine ⟨by decide, ?_, ?_⟩
  case refine_1 =>
    exact collect_without_remarks Volume.empty.disk _ _ _ _ _ _ remarked.toParse remarks
      (by decide) rfl rfl
  case refine_2 =>
    simp only [collectRemarked, collect, collectInto, Document.collect_eq_steps]
    decide

end Workspace

end TestLens
