import Mathlib.Data.List.Chain
import Mathlib.Data.UInt
import TestLens.Call.Reading
import TestLens.Proofs.Address

namespace TestLens

-- Lines first, then characters.
instance : LE Position :=
  ⟨fun p q => p.line < q.line ∨ (p.line = q.line ∧ p.character ≤ q.character)⟩

instance (p q : Position) : Decidable (p ≤ q) :=
  inferInstanceAs (Decidable (_ ∨ _))

namespace Position

variable {p q r : Position}

theorem le_iff :
    p ≤ q ↔ p.line.toNat < q.line.toNat ∨
      (p.line.toNat = q.line.toNat ∧ p.character.toNat ≤ q.character.toNat) := by
  rw [← UInt32.lt_iff_toNat_lt, ← UInt32.le_iff_toNat_le, UInt32.toNat_inj]
  rfl

theorem le_refl (p : Position) : p ≤ p :=
  .inr ⟨rfl, UInt32.le_refl _⟩

theorem le_trans (h : p ≤ q) (h' : q ≤ r) : p ≤ r := by
  rw [le_iff] at h h' ⊢
  omega

end Position

def Range.Within (r s : Range) : Prop :=
  s.start ≤ r.start ∧ r.stop ≤ s.stop

namespace Text

def NotAfter (x y : Nat × Nat) : Prop :=
  x.1 < y.1 ∨ (x.1 = y.1 ∧ x.2 ≤ y.2)

theorem go_notBefore (row column n : Nat) (cs : List Char) :
    NotAfter (row, column) (locate.go row column n cs) := by
  fun_induction locate.go row column n cs
  case case1 => exact .inr ⟨rfl, Nat.le_refl _⟩
  case case2 => exact .inr ⟨rfl, Nat.le_add_right _ _⟩
  case case3 hi =>
    unfold NotAfter at hi ⊢
    omega
  case case4 hi =>
    unfold NotAfter at hi ⊢
    omega
  case case5 => exact .inr ⟨rfl, Nat.le_add_right _ _⟩

theorem go_mono (row column : Nat) {n n' : Nat} (h : n ≤ n') (cs : List Char) :
    NotAfter (locate.go row column n cs) (locate.go row column n' cs) := by
  fun_induction locate.go row column n cs generalizing n'
  case case1 => exact go_notBefore ..
  case case2 row column n =>
    obtain ⟨k, rfl⟩ : ∃ k, n' = k + 1 := ⟨n' - 1, by omega⟩
    exact .inr ⟨rfl, by simp only [locate.go]; omega⟩
  case case3 row column n cs hi =>
    obtain ⟨k, rfl⟩ : ∃ k, n' = k + 1 := ⟨n' - 1, by omega⟩
    rw [locate.go, if_pos rfl]
    exact hi (by omega)
  case case4 row column n c cs hc hn hi =>
    obtain ⟨k, rfl⟩ : ∃ k, n' = k + 1 := ⟨n' - 1, by omega⟩
    rw [locate.go, if_neg hc, if_pos (by omega)]
    exact hi (by omega)
  -- The earlier offset is inside of a character, and the later one there too or behind it.
  case case5 row column n c cs hc hn =>
    obtain ⟨k, rfl⟩ : ∃ k, n' = k + 1 := ⟨n' - 1, by omega⟩
    rw [locate.go, if_neg hc]
    split
    case isTrue =>
      have := go_notBefore row (column + c.utf8Size) (k + 1 - c.utf8Size) cs
      unfold NotAfter at this ⊢
      omega
    case isFalse => exact .inr ⟨rfl, by omega⟩

theorem locate_mono {offset offset' : Nat} (h : offset ≤ offset') (cs : List Char) :
    NotAfter (locate cs offset) (locate cs offset') :=
  go_mono 0 0 h cs

def bytes (cs : List Char) : List UInt8 :=
  cs.flatMap String.utf8EncodeChar

theorem newline_not_mem {c : Char} (h : c ≠ '\n') : 10 ∉ String.utf8EncodeChar c := by
  have hv : c.val.toNat ≠ 10 := fun hv => h (Char.toNat_inj.mp hv)
  intro hm
  unfold String.utf8EncodeChar at hm
  simp only at hm
  repeat' split at hm
  all_goals
    simp only [List.mem_cons, List.not_mem_nil, or_false, ← UInt8.toNat_inj, UInt8.toNat_ofNat',
      UInt8.reduceToNat] at hm
    omega

theorem count_take_bytes_cons {c : Char} (hc : c ≠ '\n') (n : Nat) (cs : List Char) :
    ((bytes (c :: cs)).take n).count 10 = ((bytes cs).take (n - c.utf8Size)).count 10 := by
  have hm : 10 ∉ (String.utf8EncodeChar c).take n :=
    fun h => newline_not_mem hc (List.mem_of_mem_take h)
  rw [bytes, List.flatMap_cons, List.take_append, String.length_utf8EncodeChar, List.count_append,
    List.count_eq_zero_of_not_mem hm, Nat.zero_add, bytes]

theorem go_row (row column n : Nat) (cs : List Char) :
    (locate.go row column n cs).1 = row + ((bytes cs).take n).count 10 := by
  fun_induction locate.go row column n cs
  case case1 => simp
  case case2 => simp [bytes]
  case case3 row column n cs hi =>
    have hb : bytes ('\n' :: cs) = 10 :: bytes cs := rfl
    rw [hi, hb, List.take_succ_cons, List.count_cons_self]
    omega
  case case4 hc _ hi => rw [hi, count_take_bytes_cons hc]
  case case5 hc hn =>
    rw [count_take_bytes_cons hc, Nat.sub_eq_zero_of_le (by omega), List.take_zero]
    rfl

-- The row of an offset is the number of newlines before it.
theorem locate_row (cs : List Char) (offset : Nat) :
    (locate cs offset).1 = ((bytes cs).take offset).count 10 := by
  rw [locate, go_row, Nat.zero_add]

example : locate "é\nit".toList 3 = (1, 0) := by decide

theorem go_le (row column n : Nat) (cs : List Char) :
    (locate.go row column n cs).1 + (locate.go row column n cs).2 ≤ row + column + n := by
  fun_induction locate.go row column n cs <;> omega

theorem locate_le (cs : List Char) (offset : Nat) :
    (locate cs offset).1 + (locate cs offset).2 ≤ offset := by
  simpa [locate] using go_le 0 0 offset cs

end Text

namespace Document

variable {d : Document}

def position (d : Document) (offset : Nat) : Position :=
  let place := Text.locate d.text.toList offset
  ⟨lineAbove (.ofNat (place.1 + 1)), .ofNat place.2⟩

-- Row and column of an offset can be told in words.
def Tellable (d : Document) (offset : Nat) : Prop :=
  (Text.locate d.text.toList offset).1 < 2 ^ 32 - 1 ∧ (Text.locate d.text.toList offset).2 < 2 ^ 32

instance (offset : Nat) : Decidable (d.Tellable offset) :=
  inferInstanceAs (Decidable (_ ∧ _))

-- Words are large enough for the places in a text of less than four gigabytes.
theorem tellable_of_lt {offset : Nat} (h : offset < 2 ^ 32 - 1) : d.Tellable offset := by
  have := Text.locate_le d.text.toList offset
  exact ⟨by omega, by omega⟩

theorem extent_range (d : Document) (n : Node) :
    (d.extent n).location.range = ⟨d.position n.start, d.position n.stop⟩ :=
  rfl

end Document

theorem lineAbove_succ {row : Nat} (h : row < 2 ^ 32 - 1) :
    (lineAbove (.ofNat (row + 1))).toNat = row := by
  have hn : (UInt32.ofNat (row + 1)).toNat = row + 1 :=
    UInt32.toNat_ofNat_of_lt' (by rw [UInt32.size]; omega)
  have hz : UInt32.ofNat (row + 1) ≠ 0 := by
    intro h
    rw [h] at hn
    exact absurd hn (Nat.succ_ne_zero row).symm
  have hle : 1 ≤ UInt32.ofNat (row + 1) := by
    rw [UInt32.le_iff_toNat_le, hn]
    exact Nat.le_add_left 1 row
  rw [lineAbove, if_neg hz, UInt32.toNat_sub_of_le _ _ hle, hn]
  exact Nat.add_sub_cancel row 1

namespace Document

variable {d : Document} {offset offset' : Nat}

theorem position_toNat (h : d.Tellable offset) :
    (d.position offset).line.toNat = (Text.locate d.text.toList offset).1 ∧
      (d.position offset).character.toNat = (Text.locate d.text.toList offset).2 :=
  ⟨lineAbove_succ h.left, UInt32.toNat_ofNat_of_lt' h.right⟩

theorem line_of_call? {n : Node} {call : Call} (hc : d.call? n = some call)
    (ht : d.Tellable n.start) :
    call.line.toNat = (Text.locate d.text.toList n.start).1 + 1 := by
  rw [Call.line, extent_of_call? hc]
  exact UInt32.toNat_ofNat_of_lt' (Nat.lt_sub_iff_add_lt.mp ht.left)

theorem position_mono (h : offset ≤ offset') (ht : d.Tellable offset) (ht' : d.Tellable offset') :
    d.position offset ≤ d.position offset' := by
  rw [Position.le_iff, (position_toNat ht).left, (position_toNat ht).right,
    (position_toNat ht').left, (position_toNat ht').right]
  exact Text.locate_mono h d.text.toList

end Document

namespace Node

-- The children lie inside of the node, each of them behind the one before it.
def Nests (n : Node) : Prop :=
  n.start ≤ n.stop ∧ (∀ c ∈ n.children, n.start ≤ c.start ∧ c.stop ≤ n.stop) ∧
    n.children.IsChain fun a b => a.stop ≤ b.start

instance (n : Node) : Decidable n.Nests :=
  inferInstanceAs (Decidable (_ ∧ _ ∧ _))

def WellNested (root : Node) : Prop :=
  ∀ n ∈ root.preorder, n.Nests

instance (root : Node) : Decidable root.WellNested :=
  inferInstanceAs (Decidable (∀ n ∈ root.preorder, n.Nests))

variable {root m n : Node} {a b : Address}

theorem pairwise_of_isChain {ns : List Node} (hc : ns.IsChain fun a b => a.stop ≤ b.start)
    (hs : ∀ n ∈ ns, n.start ≤ n.stop) : ns.Pairwise fun a b => a.stop ≤ b.start := by
  induction ns
  case nil => exact .nil
  case cons n ns hi =>
    cases ns
    case nil => exact List.pairwise_singleton _ _
    case cons k ks =>
      have ⟨h, hc⟩ := List.isChain_cons_cons.mp hc
      have hp := hi hc fun x hx => hs x (List.mem_cons_of_mem _ hx)
      refine List.pairwise_cons.mpr ⟨fun x hx => ?_, hp⟩
      cases List.mem_cons.mp hx
      case inl hx => exact hx ▸ h
      case inr hx =>
        have := hs k (by simp)
        have := List.rel_of_pairwise_cons hp hx
        omega

namespace WellNested

theorem nests (hw : root.WellNested) (h : root.at? a = some n) : n.Nests :=
  hw n (mem_preorder_of_at? h)

theorem children (hw : root.WellNested) (h : root.at? a = some n) :
    n.children.Pairwise fun a b => a.stop ≤ b.start := by
  refine pairwise_of_isChain (hw.nests h).right.right fun c hc => ?_
  exact (hw c (mem_preorder_child hc (mem_preorder_of_at? h))).left

-- A node lies inside of every node above it.
theorem inside (hw : root.WellNested) (h : root.at? a = some n) (hs : b <:+ a) :
    ∃ m, root.at? b = some m ∧ m.start ≤ n.start ∧ n.stop ≤ m.stop := by
  induction a generalizing n
  case nil => exact ⟨n, List.suffix_nil.mp hs ▸ h, Nat.le_refl _, Nat.le_refl _⟩
  case cons i a hi =>
    cases List.suffix_cons_iff.mp hs
    case inl hs => exact ⟨n, hs ▸ h, Nat.le_refl _, Nat.le_refl _⟩
    case inr hs =>
      have ⟨parent, hp, hc⟩ := Option.bind_eq_some_iff.mp h
      have ⟨m, hm, hl, hr⟩ := hi hp hs
      have ⟨hl', hr'⟩ := (hw.nests hp).right.left n (List.mem_of_getElem? hc)
      exact ⟨m, hm, by omega, by omega⟩

-- Where two addresses part, the one further right stands behind the other one.
theorem behind (hw : root.WellNested) (ha : root.at? a = some m) (hb : root.at? b = some n)
    {p : Address} {i j : Nat} (hij : i < j) (hi : (i :: p) <:+ a) (hj : (j :: p) <:+ b) :
    m.stop ≤ n.start := by
  have ⟨left, hl, _, hle⟩ := hw.inside ha hi
  have ⟨right, hr, hre, _⟩ := hw.inside hb hj
  have ⟨parent, hp, hl⟩ := Option.bind_eq_some_iff.mp hl
  rw [at?_child hp] at hr
  have ⟨hil, hl⟩ := List.getElem?_eq_some_iff.mp hl
  have ⟨hjl, hr⟩ := List.getElem?_eq_some_iff.mp hr
  have := List.pairwise_iff_getElem.mp (hw.children hp) i j hil hjl hij
  rw [hl, hr] at this
  omega

end WellNested

end Node

end TestLens
