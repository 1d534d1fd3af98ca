import TestLens.Tree.Cursor

namespace TestLens

-- The second address is below the first one, or further right where the two part.
def Address.Precedes (a b : Address) : Prop :=
  (a <:+ b ∧ a ≠ b) ∨ ∃ p i j, i < j ∧ (i :: p) <:+ a ∧ (j :: p) <:+ b

namespace Node

-- Induction on a tree. A fact about a node is proved together with one about lists of siblings.
theorem induction {motive : Node → Prop} (below : List Node → Prop)
    (node : ∀ n, below n.children → motive n) (nil : below [])
    (cons : ∀ n ns, motive n → below ns → below (n :: ns)) (n : Node) : motive n :=
  @Node.rec motive below (fun _ _ _ _ _ _ _ h => node _ h) nil cons n

def at? (n : Node) : Address → Option Node
  | [] => some n
  | i :: a => (n.at? a).bind fun parent => parent.children[i]?

-- The addresses of a node at `a` and of all nodes below it, in document order.
def addressesFrom (a : Address) : Node → List Address
  | ⟨_, _, _, _, _, _, children⟩ => a :: below a 0 children
where
  below (a : Address) (i : Nat) : List Node → List Address
    | [] => []
    | c :: cs => c.addressesFrom (i :: a) ++ below a (i + 1) cs

def addresses (n : Node) : List Address :=
  n.addressesFrom []

theorem addressesFrom_eq (a : Address) (n : Node) :
    n.addressesFrom a = a :: addressesFrom.below a 0 n.children := by
  cases n; rfl

theorem at?_child {n parent : Node} {a : Address} {i : Nat} (h : n.at? a = some parent) :
    n.at? (i :: a) = parent.children[i]? := by
  simp [at?, h]

-- The siblings from position `i` on, taken one at a time.
theorem at?_sibling {n parent c : Node} {a : Address} {i : Nat} {cs : List Node}
    (h : n.at? a = some parent) (hd : parent.children.drop i = c :: cs) :
    n.at? (i :: a) = some c ∧ parent.children.drop (i + 1) = cs := by
  constructor
  case left => rw [at?_child h, ← List.head?_drop, hd, List.head?_cons]
  case right => rw [← List.drop_drop, hd, List.drop_one, List.tail_cons]

-- The same for nodes with their addresses below `root`. Siblings are taken from position `i` on.
theorem induction_at {root : Node} {motive : (a : Address) → (n : Node) → root.at? a = some n → Prop}
    (below : Address → Nat → List Node → Prop)
    (node : ∀ a n (hn : root.at? a = some n), below a 0 n.children → motive a n hn)
    (nil : ∀ a i, below a i [])
    (cons : ∀ a i n ns (hn : root.at? (i :: a) = some n), motive (i :: a) n hn →
      below a (i + 1) ns → below a i (n :: ns))
    (a : Address) (n : Node) (hn : root.at? a = some n) : motive a n hn := by
  induction n using Node.induction (fun ns => ∀ parent a i, root.at? a = some parent →
    parent.children.drop i = ns → below a i ns) generalizing a
  case node n hi => exact node a n hn (hi n a 0 hn rfl)
  case nil _ a i _ _ => exact nil a i
  case cons n ns hm hi parent a i hp hd =>
    obtain ⟨hn, hd⟩ := at?_sibling hp hd
    exact cons a i n ns hn (hm (i :: a) hn) (hi parent a (i + 1) hp hd)

theorem suffix_of_mem_addressesFrom {a b : Address} {n : Node} (h : b ∈ n.addressesFrom a) :
    a <:+ b := by
  induction n using Node.induction (fun ns => ∀ a i, b ∈ addressesFrom.below a i ns → a <:+ b)
    generalizing a
  case node n hi =>
    rw [addressesFrom_eq] at h
    cases List.mem_cons.mp h
    case inl h => exact h ▸ List.suffix_refl a
    case inr h => exact hi a 0 h
  case nil => contradiction
  case cons n ns hn hi a i h =>
    cases List.mem_append.mp h
    case inl h => exact (List.suffix_cons i a).trans (hn h)
    case inr h => exact hi a (i + 1) h

-- What stands below siblings from `i` on stands below one of the positions from `i` on.
theorem suffix_of_mem_below {a b : Address} {i : Nat} {ns : List Node}
    (h : b ∈ addressesFrom.below a i ns) : ∃ j, i ≤ j ∧ (j :: a) <:+ b := by
  induction ns generalizing i
  case nil => contradiction
  case cons n ns hi =>
    cases List.mem_append.mp h
    case inl h => exact ⟨i, Nat.le_refl i, suffix_of_mem_addressesFrom h⟩
    case inr h =>
      have ⟨j, hi, hj⟩ := hi h
      exact ⟨j, by omega, hj⟩

theorem ne_of_child_suffix {a b : Address} {i : Nat} (h : (i :: a) <:+ b) : a ≠ b := by
  intro he
  have := h.length_le
  rw [he, List.length_cons] at this
  omega

theorem index_unique {a b : Address} {i j : Nat} (hi : (i :: a) <:+ b) (hj : (j :: a) <:+ b) :
    i = j := by
  have h := List.suffix_of_suffix_length_le hi hj (by simp)
  exact (List.cons.inj (h.eq_of_length (by simp))).left

theorem addressesFrom_nodup (a : Address) (n : Node) : (n.addressesFrom a).Nodup := by
  induction n using Node.induction (fun ns => ∀ a i, (addressesFrom.below a i ns).Nodup)
    generalizing a
  case node n hi =>
    rw [addressesFrom_eq]
    refine List.nodup_cons.mpr ⟨?_, hi a 0⟩
    intro h
    have ⟨j, _, hj⟩ := suffix_of_mem_below h
    exact ne_of_child_suffix hj rfl
  case nil => exact List.nodup_nil
  case cons n ns hn hi a i =>
    refine List.nodup_append.mpr ⟨hn (i :: a), hi a (i + 1), ?_⟩
    intro b hb b' hb' he
    have ⟨j, hi, hj⟩ := suffix_of_mem_below hb'
    have := index_unique (suffix_of_mem_addressesFrom hb) (he ▸ hj)
    omega

theorem addresses_nodup (n : Node) : n.addresses.Nodup :=
  n.addressesFrom_nodup []

theorem addressesFrom_ordered (a : Address) (n : Node) :
    (n.addressesFrom a).Pairwise Address.Precedes := by
  induction n using
    Node.induction (fun ns => ∀ a i, (addressesFrom.below a i ns).Pairwise Address.Precedes)
    generalizing a
  case node n hi =>
    rw [addressesFrom_eq]
    refine List.pairwise_cons.mpr ⟨?_, hi a 0⟩
    intro b hb
    have ⟨j, _, hj⟩ := suffix_of_mem_below hb
    exact .inl ⟨(List.suffix_cons j a).trans hj, ne_of_child_suffix hj⟩
  case nil => exact .nil
  case cons n ns hn hi a i =>
    refine List.pairwise_append.mpr ⟨hn (i :: a), hi a (i + 1), ?_⟩
    intro b hb b' hb'
    have ⟨j, hi, hj⟩ := suffix_of_mem_below hb'
    exact .inr ⟨a, i, j, hi, suffix_of_mem_addressesFrom hb, hj⟩

theorem addresses_ordered (n : Node) : n.addresses.Pairwise Address.Precedes :=
  n.addressesFrom_ordered []

theorem addressesFrom_within_below {a : Address} {n : Node} {ns : List Node} {i j : Nat}
    (h : ns[j]? = some n) : n.addressesFrom ((i + j) :: a) <:+: addressesFrom.below a i ns := by
  induction ns generalizing i j
  case nil => simp at h
  case cons m ms hi =>
    cases j
    case zero =>
      cases h
      exact (List.prefix_append _ _).isInfix
    case succ j =>
      have h := hi (i := i + 1) (j := j) (by simpa using h)
      rw [Nat.add_right_comm] at h
      exact h.trans (List.suffix_append _ _).isInfix

theorem addressesFrom_contiguous {n m : Node} {a : Address} (h : n.at? a = some m) :
    m.addressesFrom a <:+: n.addresses := by
  induction a generalizing m
  case nil =>
    cases h
    exact List.infix_refl _
  case cons i a hi =>
    have ⟨parent, hp, hc⟩ := Option.bind_eq_some_iff.mp h
    have hb : m.addressesFrom (i :: a) <:+: addressesFrom.below a 0 parent.children := by
      simpa using addressesFrom_within_below (a := a) (i := 0) hc
    have hs := List.suffix_cons a (addressesFrom.below a 0 parent.children)
    exact (hb.trans hs.isInfix).trans (parent.addressesFrom_eq a ▸ hi hp)

theorem mem_addresses_of_at? {n m : Node} {a : Address} (h : n.at? a = some m) :
    a ∈ n.addresses := by
  apply (addressesFrom_contiguous h).subset
  simp [addressesFrom_eq]

theorem mem_below_of_mem {n : Node} {ns : List Node} (h : n ∈ ns) : n ∈ preorder.below ns := by
  induction ns
  case nil => contradiction
  case cons m ms hi =>
    cases List.mem_cons.mp h
    case inl h => simp [preorder.below, preorder_eq, h]
    case inr h => exact List.mem_append_right _ (hi h)

theorem mem_preorder_child {n m c : Node} (hc : c ∈ m.children) (h : m ∈ n.preorder) :
    c ∈ n.preorder := by
  induction n using Node.induction (fun ns => m ∈ preorder.below ns → c ∈ preorder.below ns)
  case node n hi =>
    rw [preorder_eq] at h ⊢
    cases List.mem_cons.mp h
    case inl h =>
      subst h
      exact List.mem_cons_of_mem _ (mem_below_of_mem hc)
    case inr h => exact List.mem_cons_of_mem _ (hi h)
  case nil => contradiction
  case cons n ns hn hi h =>
    cases List.mem_append.mp h
    case inl h => exact List.mem_append_left _ (hn h)
    case inr h => exact List.mem_append_right _ (hi h)

theorem mem_preorder_of_at? {n m : Node} {a : Address} (h : n.at? a = some m) :
    m ∈ n.preorder := by
  induction a generalizing m
  case nil =>
    cases h
    simp [preorder_eq]
  case cons i a hi =>
    have ⟨parent, hp, hc⟩ := Option.bind_eq_some_iff.mp h
    exact mem_preorder_child (List.mem_of_getElem? hc) (hi hp)

theorem at?_append (n : Node) (a b : Address) :
    n.at? (a ++ b) = (n.at? b).bind fun m => m.at? a := by
  induction a
  case nil => simp [at?]
  case cons i a hi => simp [at?, hi, Option.bind_assoc]

theorem mem_preorder_of_suffix {root n m : Node} {a b : Address} (hn : root.at? b = some n)
    (hm : root.at? a = some m) (hs : b <:+ a) : m ∈ n.preorder := by
  obtain ⟨c, rfl⟩ := hs
  rw [at?_append, hn] at hm
  exact mem_preorder_of_at? hm

theorem not_suffix_of_precedes {a b : Address} (h : a.Precedes b) : ¬ b <:+ a := by
  intro hs
  cases h
  case inl h => exact h.right (h.left.eq_of_length_le hs.length_le)
  case inr h =>
    obtain ⟨p, i, j, hij, hi, hj⟩ := h
    have := index_unique hi (hj.trans hs)
    omega

theorem precedes_or_precedes {n : Node} {a b : Address} (ha : a ∈ n.addresses)
    (hb : b ∈ n.addresses) (hne : a ≠ b) : a.Precedes b ∨ b.Precedes a := by
  obtain ⟨before, after, h⟩ := List.append_of_mem ha
  have ho := h ▸ n.addresses_ordered
  obtain ⟨_, hafter, hbefore⟩ := List.pairwise_append.mp ho
  rw [h] at hb
  cases List.mem_append.mp hb
  case inl hb => exact .inr (hbefore b hb a (List.mem_cons_self ..))
  case inr hb =>
    cases List.mem_cons.mp hb
    case inl he => exact absurd he.symm hne
    case inr hb => exact .inl (List.rel_of_pairwise_cons hafter hb)

theorem map_at?_addressesFrom {root n : Node} {a : Address} (hn : root.at? a = some n) :
    (n.addressesFrom a).map root.at? = n.preorder.map some := by
  induction a, n, hn using Node.induction_at fun a i ns =>
    (addressesFrom.below a i ns).map root.at? = (preorder.below ns).map some
  case node a n hn hi => rw [addressesFrom_eq, preorder_eq, List.map_cons, List.map_cons, hn, hi]
  case nil => rfl
  case cons a i n ns _ hn hi =>
    rw [addressesFrom.below, preorder.below, List.map_append, List.map_append, hn, hi]

theorem map_at?_addresses (root : Node) : root.addresses.map root.at? = root.preorder.map some :=
  map_at?_addressesFrom rfl

theorem exists_at?_of_mem_preorder {root n : Node} (h : n ∈ root.preorder) :
    ∃ a ∈ root.addresses, root.at? a = some n :=
  List.mem_map.mp (root.map_at?_addresses ▸ List.mem_map_of_mem h)

end Node

end TestLens
