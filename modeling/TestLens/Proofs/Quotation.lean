import Mathlib.Data.List.Chain
import TestLens.Text.Quoted

namespace TestLens.Text

variable {x y : List Char}

theorem inRanges_iff {n : Nat} {ranges : List (Nat × Nat)}
    (ha : (ranges.map Prod.fst).IsChain (· < ·)) :
    inRanges n ranges ↔ ∃ r ∈ ranges, r.1 ≤ n ∧ n ≤ r.2 := by
  -- The search may end at the first range that starts too late, since they ascend.
  rw [List.isChain_iff_pairwise, List.pairwise_map] at ha
  induction ha
  case nil => simp [inRanges]
  case cons r ranges hr _ hi =>
    have hs : (∃ s ∈ ranges, s.1 ≤ n ∧ n ≤ s.2) → r.1 ≤ n := by
      intro ⟨s, hs, hn, _⟩
      exact (hr s hs).le.trans hn
    simp only [inRanges, Bool.and_eq_true, Bool.or_eq_true, decide_eq_true_eq, hi,
      List.exists_mem_cons_iff]
    rw [and_or_left, and_iff_right_of_imp hs]

theorem isMarkless_iff {c : Char} :
    isMarkless c ↔ ∃ r ∈ markless, r.1 ≤ c.toNat ∧ c.toNat ≤ r.2 :=
  inRanges_iff (by decide +kernel)

-- A run of characters of one kind ends where the first other character stands.
theorem append_inj_of_all {p : Char → Bool} {ds es : List Char} (hd : ∀ c ∈ ds, p c)
    (he : ∀ c ∈ es, p c) (hx : ∀ c ∈ x.head?, p c = false) (hy : ∀ c ∈ y.head?, p c = false)
    (h : ds ++ x = es ++ y) : ds = es ∧ x = y := by
  have ht {zs : List Char} (hz : ∀ c ∈ zs.head?, p c = false) : zs.takeWhile p = [] := by
    cases zs
    case nil => rfl
    case cons c cs => simp [hz c rfl]
  have hds := congrArg (List.takeWhile p) h
  rw [List.takeWhile_append_of_pos hd, List.takeWhile_append_of_pos he, ht hx, ht hy,
    List.append_nil, List.append_nil] at hds
  exact ⟨hds, List.append_cancel_left (hds ▸ h)⟩

-- Characters are written as they are, by a letter behind a backslash, or, when they are `Long`, in a
-- form of their own behind a backslash and a u.
structure Escaping (write : Char → List Char) (letters : List (Char × Char)) (Long : Char → Prop)
    (long : Char → List Char) : Prop where
  forms : ∀ c, (write c = [c] ∧ c ≠ '\\' ∧ c ≠ '"') ∨
    (∃ k, (k, c) ∈ letters ∧ write c = ['\\', k]) ∨ (Long c ∧ write c = '\\' :: 'u' :: long c)
  unique : ∀ p ∈ letters, p.1 ≠ 'u' ∧ ∀ q ∈ letters, p.1 = q.1 → p.2 = q.2
  long_inj : ∀ {c d x y}, Long c → Long d → long c ++ x = long d ++ y → c = d ∧ x = y

namespace Escaping

variable {write : Char → List Char} {letters : List (Char × Char)} {Long : Char → Prop}
variable {long : Char → List Char}

theorem append_inj (he : Escaping write letters Long long) {c d : Char}
    (h : write c ++ x = write d ++ y) : c = d ∧ x = y := by
  obtain ⟨hc, hcb, _⟩ | ⟨k, hk, hc⟩ | ⟨hcl, hc⟩ := he.forms c <;>
    obtain ⟨hd, hdb, _⟩ | ⟨l, hl, hd⟩ | ⟨hdl, hd⟩ := he.forms d <;>
    simp only [hc, hd, List.cons_append, List.nil_append, List.cons.injEq, true_and] at h
  case inl.inl => exact h
  case inl.inr.inl => exact absurd h.left hcb
  case inl.inr.inr => exact absurd h.left hcb
  case inr.inl.inl => exact absurd h.left.symm hdb
  case inr.inl.inr.inl => exact ⟨(he.unique _ hk).right _ hl h.left, h.right⟩
  case inr.inl.inr.inr => exact absurd h.left (he.unique _ hk).left
  case inr.inr.inl => exact absurd h.left.symm hdb
  case inr.inr.inr.inl => exact absurd h.left.symm (he.unique _ hl).left
  case inr.inr.inr.inr => exact he.long_inj hcl hdl h

theorem ne_quote (he : Escaping write letters Long long) (c : Char) : write c ++ x ≠ '"' :: y := by
  obtain ⟨hc, _, hq⟩ | ⟨k, _, hc⟩ | ⟨_, hc⟩ := he.forms c
  case inl => simp [hc, hq]
  case inr.inl => simp [hc]
  case inr.inr => simp [hc]

-- Nothing inside of quotes can be taken for the quote at the end.
theorem flatMap_inj (he : Escaping write letters Long long) {cs ds : List Char}
    (h : cs.flatMap write ++ '"' :: x = ds.flatMap write ++ '"' :: y) : cs = ds ∧ x = y := by
  induction cs generalizing ds
  case nil =>
    cases ds
    case nil => simpa using h
    case cons d ds =>
      rw [List.flatMap_cons, List.append_assoc] at h
      exact absurd h.symm (he.ne_quote d)
  case cons c cs hi =>
    rw [List.flatMap_cons, List.append_assoc] at h
    cases ds
    case nil => exact absurd h (he.ne_quote c)
    case cons d ds =>
      rw [List.flatMap_cons, List.append_assoc] at h
      have ⟨hc, h⟩ := he.append_inj h
      have ⟨hcs, hxy⟩ := hi h
      exact ⟨by rw [hc, hcs], hxy⟩

end Escaping

theorem digitChar_injective : ∀ m < 16, ∀ n < 16, m.digitChar = n.digitChar → m = n := by
  decide

theorem hex_eq (n : Nat) :
    hex n = (if n < 16 then [] else hex (n / 16)) ++ [(n % 16).digitChar] := by
  rw [hex, Nat.toDigits_eq_if (by decide)]
  split
  case isTrue h => rw [Nat.mod_eq_of_lt h, List.nil_append]
  case isFalse => rfl

theorem hex_injective {m n : Nat} (h : hex m = hex n) : m = n := by
  induction m using Nat.strongRecOn generalizing n
  case ind m hi =>
    rw [hex_eq m, hex_eq n] at h
    have ⟨hq, hr⟩ := List.append_inj' h rfl
    have hr := digitChar_injective _ (Nat.mod_lt m (by decide)) _ (Nat.mod_lt n (by decide))
      (List.singleton_inj.mp hr)
    split at hq <;> split at hq
    case isTrue.isTrue => omega
    case isTrue.isFalse => exact absurd hq.symm Nat.toDigits_ne_nil
    case isFalse.isTrue => exact absurd hq Nat.toDigits_ne_nil
    case isFalse.isFalse =>
      have hq := hi (m / 16) (by omega) hq
      omega

theorem exists_digitChar_of_mem_hex {n : Nat} {c : Char} (h : c ∈ hex n) :
    ∃ r < 16, c = r.digitChar := by
  induction n using Nat.strongRecOn
  case ind n hi =>
    rw [hex_eq, List.mem_append, List.mem_singleton] at h
    cases h
    case inr h => exact ⟨n % 16, Nat.mod_lt n (by decide), h⟩
    case inl h =>
      split at h
      case isTrue => contradiction
      case isFalse => exact hi (n / 16) (by omega) h

def shorthands : List (Char × Char) :=
  [('"', '"'), ('\\', '\\'), ('n', '\n'), ('r', '\r'), ('t', '\t'), ('0', '\x00')]

theorem quoteChar_cases (c : Char) :
    (quoteChar c = [c] ∧ c ≠ '\\' ∧ c ≠ '"' ∧ isUnseen c = false) ∨
      (∃ k, (k, c) ∈ shorthands ∧ quoteChar c = ['\\', k]) ∨ quoteChar c = codePoint c := by
  unfold quoteChar
  repeat' split
  all_goals simp_all [shorthands]

theorem escaping_quoteChar :
    Escaping quoteChar shorthands (fun _ => True)
      (fun c => '\x7b' :: (hex c.toNat ++ ['\x7d'])) where
  forms c := by
  -- The brace at the end of a code point tells where its digits end.
    obtain ⟨hc, hb, hq, _⟩ | hc | hc := quoteChar_cases c
    case inl => exact .inl ⟨hc, hb, hq⟩
    case inr.inl => exact .inr (.inl hc)
    case inr.inr => exact .inr (.inr ⟨trivial, hc⟩)
  unique := by decide
  long_inj {c d x y} _ _ h := by
    have hb : ∀ r < 16, r.digitChar ≠ '\x7d' := by decide
    have hm (c : Char) : ∀ k ∈ hex c.toNat, decide (k ≠ '\x7d') := by
      intro k hk
      have ⟨r, hr, he⟩ := exists_digitChar_of_mem_hex hk
      exact decide_eq_true (he ▸ hb r hr)
    simp only [List.cons_append, List.append_assoc, List.nil_append, List.cons.injEq, true_and] at h
    have ⟨hn, hxy⟩ := append_inj_of_all (hm c) (hm d) (by simp) (by simp) h
    exact ⟨Char.toNat_inj.mp (hex_injective hn), (List.cons.inj hxy).right⟩

theorem isUnseen_of_mem_quoteChar {c k : Char} (h : k ∈ quoteChar c) : isUnseen k = false := by
  have hl : ∀ p ∈ shorthands, isUnseen p.1 = false := by decide
  have hd : ∀ r < 16, isUnseen r.digitChar = false := by decide
  have ho : ∀ o ∈ ['\\', 'u', '\x7b', '\x7d'], isUnseen o = false := by
    simp only [List.forall_mem_cons, List.not_mem_nil, false_imp_iff, implies_true, and_true]
    decide
  obtain ⟨hc, _, _, hu⟩ | ⟨l, hm, hc⟩ | hc := quoteChar_cases c <;> rw [hc] at h
  case inl => rwa [List.mem_singleton.mp h]
  case inr.inl =>
    rw [List.mem_pair] at h
    obtain rfl | rfl := h
    case inl => exact ho _ (by simp)
    case inr => exact hl _ hm
  case inr.inr =>
    rw [codePoint, List.mem_append, List.mem_append] at h
    obtain (h | h) | h := h
    case inl.inl => exact ho k (List.mem_append_left ['\x7d'] h)
    case inl.inr =>
      have ⟨r, hr, he⟩ := exists_digitChar_of_mem_hex h
      exact he ▸ hd r hr
    case inr => exact ho k (List.mem_append_right ['\\', 'u', '\x7b'] h)

theorem quoted_append_inj {s t u v : String} (h : quoted s ++ u = quoted t ++ v) :
    s = t ∧ u = v := by
  have h := congrArg String.toList h
  simp only [quoted, String.toList_append, String.toList_ofList, List.cons_append, List.nil_append,
    List.append_assoc, List.cons.injEq, true_and] at h
  have ⟨hst, huv⟩ := escaping_quoteChar.flatMap_inj h
  exact ⟨String.toList_inj.mp hst, String.toList_inj.mp huv⟩

-- So a line break in the text does not break the line.
theorem isUnseen_of_mem_quoted {s : String} {c : Char} (h : c ∈ (quoted s).toList) :
    isUnseen c = false := by
  simp only [quoted, String.toList_ofList, List.mem_append, List.mem_singleton,
    List.mem_flatMap] at h
  obtain (rfl | ⟨d, _, h⟩) | rfl := h
  case inl.inl => decide
  case inl.inr => exact isUnseen_of_mem_quoteChar h
  case inr => decide

end TestLens.Text
