import Mathlib.Algebra.Group.Nat.Defs
import TestLens.Json.Printer
import TestLens.Proofs.Quotation
import TestLens.Proofs.RoundTrip

namespace TestLens

namespace Json

variable {x y : List Char}

theorem controlDigits_injective {m n : Nat} (hm : m < 32) (hn : n < 32)
    (h : controlDigits m = controlDigits n) : m = n := by
  simp only [controlDigits, List.cons.injEq, and_true, true_and] at h
  have hd := Text.digitChar_injective (m / 16) (by omega) (n / 16) (by omega) h.left
  have hr := Text.digitChar_injective (m % 16) (by omega) (n % 16) (by omega) h.right
  omega

theorem escaping_escape :
    Text.Escaping escape
      [('"', '"'), ('\\', '\\'), ('b', '\x08'), ('f', '\x0c'), ('n', '\n'), ('r', '\r'), ('t', '\t')]
      (fun c => c.toNat < 32) (fun c => controlDigits c.toNat) where
  forms c := by
    unfold escape
    repeat' split
    all_goals simp_all
  unique := by decide
  long_inj {c d x y} hc hd h := by
    have ⟨hn, hxy⟩ := List.append_inj h rfl
    exact ⟨Char.toNat_inj.mp (controlDigits_injective hc hd hn), hxy⟩

theorem quote_append_inj {s t : String} (h : quote s ++ x = quote t ++ y) : s = t ∧ x = y := by
  simp only [quote, List.cons_append, List.append_assoc, List.nil_append, List.cons.injEq,
    true_and] at h
  have ⟨hst, hxy⟩ := escaping_escape.flatMap_inj h
  exact ⟨String.toList_inj.mp hst, hxy⟩

theorem toDigits_injective {m n : Nat} (h : Nat.toDigits 10 m = Nat.toDigits 10 n) : m = n := by
  rw [← Nat.ofDigitChars_ten_toDigits (n := m), h, Nat.ofDigitChars_ten_toDigits]

theorem isDigit_of_mem {n : Nat} {c : Char} (h : c ∈ Nat.toDigits 10 n) : c.isDigit :=
  Nat.isDigit_of_mem_toDigits (by decide) (by decide) h

-- A one in front of the digits keeps their leading zeros, so all of them are there.
theorem toDigits_pow_add (scale : Nat) {r : Nat} (hr : r < 10 ^ scale) :
    ∃ ds, Nat.toDigits 10 (10 ^ scale + r) = '1' :: ds ∧ ds.length = scale := by
  induction scale generalizing r
  case zero =>
    have : r = 0 := by simpa using hr
    subst this
    exact ⟨[], rfl, rfl⟩
  case succ scale hi =>
    have ⟨ds, hds, hl⟩ := hi (r := r / 10) (by omega)
    refine ⟨ds ++ [(r % 10).digitChar], ?_, by simp [hl]⟩
    have hp : 0 < 10 ^ scale := Nat.pow_pos (by decide)
    rw [Nat.toDigits_of_base_le (by decide) (by omega)]
    have hq : (10 ^ (scale + 1) + r) / 10 = 10 ^ scale + r / 10 := by omega
    have hm : (10 ^ (scale + 1) + r) % 10 = r % 10 := by omega
    rw [hq, hm, hds, List.cons_append]

theorem digits_cases (n scale : Nat) :
    (scale = 0 ∧ digits n scale = Nat.toDigits 10 n) ∨
      ∃ ds, ds.length = scale ∧ Nat.toDigits 10 (10 ^ scale + n % 10 ^ scale) = '1' :: ds ∧
        digits n scale = Nat.toDigits 10 (n / 10 ^ scale) ++ '.' :: ds := by
  unfold digits
  split
  case isTrue h => exact .inl ⟨h, rfl⟩
  case isFalse =>
    have ⟨ds, hds, hl⟩ := toDigits_pow_add scale (Nat.mod_lt n (Nat.pow_pos (by decide)))
    refine .inr ⟨ds, hl, hds, ?_⟩
    simp [hds]

theorem digits_injective {m n s t : Nat} (h : digits m s = digits n t) : m = n ∧ s = t := by
  have hdot {k : Nat} {ds es : List Char} : Nat.toDigits 10 k ≠ ds ++ '.' :: es := by
    intro he
    have := isDigit_of_mem (show '.' ∈ Nat.toDigits 10 k by simp [he])
    contradiction
  obtain ⟨rfl, hm⟩ | ⟨ds, hds, hr, hm⟩ := digits_cases m s <;>
    obtain ⟨rfl, hn⟩ | ⟨es, hes, hr', hn⟩ := digits_cases n t <;> rw [hm, hn] at h
  case inl.inl => exact ⟨toDigits_injective h, rfl⟩
  case inl.inr => exact absurd h hdot
  case inr.inl => exact absurd h.symm hdot
  case inr.inr =>
    have ⟨hq, hs⟩ := Text.append_inj_of_all (fun _ => isDigit_of_mem) (fun _ => isDigit_of_mem)
      (by simp) (by simp) h
    obtain rfl : ds = es := (List.cons.inj hs).right
    obtain rfl : s = t := hds.symm.trans hes
    have hq := toDigits_injective hq
    have hr := Nat.add_left_cancel (toDigits_injective (hr.trans hr'.symm))
    exact ⟨by rw [← Nat.div_add_mod m (10 ^ s), hq, hr, Nat.div_add_mod], rfl⟩

theorem mem_digits {n scale : Nat} {c : Char} (h : c ∈ digits n scale) : c.isDigit ∨ c = '.' := by
  obtain ⟨_, hn⟩ | ⟨ds, _, hr, hn⟩ := digits_cases n scale <;> rw [hn] at h
  case inl => exact .inl (isDigit_of_mem h)
  case inr =>
    obtain h | h | h := by simpa using h
    case inl => exact .inl (isDigit_of_mem h)
    case inr.inl => exact .inr h
    case inr.inr => exact .inl (isDigit_of_mem (hr ▸ List.mem_cons_of_mem _ h))

theorem number_injective {m n : Int} {s t : Nat} (h : number m s = number n t) :
    m = n ∧ s = t := by
  have hneg {k scale : Nat} {ds : List Char} : digits k scale ≠ '-' :: ds := by
    intro he
    have := mem_digits (show '-' ∈ digits k scale by simp [he])
    simp at this
  cases m <;> cases n
  case ofNat.ofNat => exact (digits_injective h).imp_left (congrArg Int.ofNat)
  case ofNat.negSucc => exact absurd h hneg
  case negSucc.ofNat => exact absurd h.symm hneg
  case negSucc.negSucc => simpa using digits_injective (List.cons.inj h).right

def isNumeral (c : Char) : Bool :=
  c.isDigit || c = '.' || c = '-'

theorem isNumeral_of_mem {m : Int} {scale : Nat} {c : Char} (h : c ∈ number m scale) :
    isNumeral c := by
  have hd {n : Nat} (h : c ∈ digits n scale) : isNumeral c := by
    obtain h | h := mem_digits h <;> simp [isNumeral, h]
  cases m
  case ofNat => exact hd h
  case negSucc =>
    cases List.mem_cons.mp h
    case inl h => simp [isNumeral, h]
    case inr h => exact hd h

-- What stands behind a value.
def Follows (x : List Char) : Prop :=
  x.head? = some ',' ∨ x.head? = some '\n'

theorem number_append_inj {m n : Int} {s t : Nat} (hx : Follows x) (hy : Follows y)
    (h : number m s ++ x = number n t ++ y) : (m = n ∧ s = t) ∧ x = y := by
  have hend {z : List Char} (hz : Follows z) : ∀ c ∈ z.head?, isNumeral c = false := by
    obtain hz | hz := hz <;> simp [hz, isNumeral]
  have ⟨hn, hxy⟩ := Text.append_inj_of_all (fun _ => isNumeral_of_mem) (fun _ => isNumeral_of_mem)
    (hend hx) (hend hy) h
  exact ⟨number_injective hn, hxy⟩

section Lists

variable {α : Type} {f : α → List Char} {sep : List Char}

-- The texts of elements tell where they end.
def Legible (f : α → List Char) (a : α) : Prop :=
  ∀ b x y, Follows x → Follows y → f a ++ x = f b ++ y → a = b ∧ x = y

theorem intercalate_cons (a : α) (as : List α) :
    sep.intercalate ((a :: as).map f) = f a ++ as.flatMap fun b => sep ++ f b := by
  induction as generalizing a
  case nil => simp
  case cons b bs hi =>
    have hi := hi b
    rw [List.map_cons] at hi
    rw [List.map_cons, List.map_cons, List.intercalate_cons_cons, hi, List.flatMap_cons]
    simp

theorem follows_flatMap (as : List α) :
    Follows (as.flatMap (fun a => ',' :: sep ++ f a) ++ '\n' :: x) := by
  cases as <;> simp [Follows]

theorem flatMap_append_inj {as bs : List α} (hf : ∀ a ∈ as, Legible f a)
    (h : as.flatMap (fun a => ',' :: sep ++ f a) ++ '\n' :: x =
      bs.flatMap (fun b => ',' :: sep ++ f b) ++ '\n' :: y) : as = bs ∧ x = y := by
  induction as generalizing bs
  case nil =>
    cases bs
    case nil => simpa using h
    case cons => simp at h
  case cons a as hi =>
    cases bs
    case nil => simp at h
    case cons b bs =>
      have ⟨ha, has⟩ := List.forall_mem_cons.mp hf
      simp only [List.flatMap_cons, List.append_assoc, List.cons_append, List.cons.injEq, true_and,
        List.append_cancel_left_eq] at h
      have ⟨hab, h⟩ := ha b _ _ (follows_flatMap as) (follows_flatMap bs) h
      have ⟨hs, hxy⟩ := hi has h
      exact ⟨by rw [hab, hs], hxy⟩

theorem enclose_cons {left right : Char} {depth : Nat} (a : α) (as : List α) :
    enclose left right depth ((a :: as).map f) ++ x =
      left :: lineBreak (depth + 1) ++ (f a ++ (as.flatMap (fun b => ',' :: lineBreak (depth + 1) ++
        f b) ++ '\n' :: (List.replicate (2 * depth) ' ' ++ right :: x))) := by
  rw [enclose, if_neg (by simp), intercalate_cons]
  simp [lineBreak]

theorem enclose_append_inj {left right : Char} {depth : Nat} {as bs : List α} (hr : right ≠ '\n')
    (hf : ∀ a ∈ as, Legible f a)
    (h : enclose left right depth (as.map f) ++ x = enclose left right depth (bs.map f) ++ y) :
    as = bs ∧ x = y := by
  cases as <;> cases bs
  case nil.nil => simpa [enclose] using h
  case nil.cons b bs =>
    rw [enclose_cons] at h
    simp [enclose, lineBreak, hr] at h
  case cons.nil a as =>
    rw [enclose_cons] at h
    simp [enclose, lineBreak, hr.symm] at h
  case cons.cons a as b bs =>
    have ⟨ha, has⟩ := List.forall_mem_cons.mp hf
    rw [enclose_cons, enclose_cons, List.append_cancel_left_eq] at h
    have ⟨hab, h⟩ := ha b _ _ (follows_flatMap as) (follows_flatMap bs) h
    have ⟨hs, hxy⟩ := flatMap_append_inj has h
    exact ⟨by rw [hab, hs], by simpa using hxy⟩

end Lists

theorem itemChars_eq (depth : Nat) (items : List Json) :
    chars.itemChars depth items = items.map (chars depth) := by
  induction items
  case nil => rfl
  case cons j js hi => rw [chars.itemChars, hi, List.map_cons]

def memberText (depth : Nat) (m : String × Json) : List Char :=
  quote m.1 ++ [':', ' '] ++ chars depth m.2

theorem memberChars_eq (depth : Nat) (members : List (String × Json)) :
    chars.memberChars depth members = members.map (memberText depth) := by
  induction members
  case nil => rfl
  case cons m ms hi => rw [chars.memberChars, hi, List.map_cons, memberText]

def opening : Json → Char
  | .null => 'n'
  | .bool true => 't'
  | .bool false => 'f'
  | .num _ _ => '0'
  | .str _ => '"'
  | .arr _ => '['
  | .obj _ => '\x7b'

theorem enclose_eq_cons (left right : Char) (depth : Nat) (items : List (List Char)) :
    ∃ cs, enclose left right depth items = left :: cs := by
  unfold enclose
  split <;> exact ⟨_, rfl⟩

theorem number_ne_nil (m : Int) (scale : Nat) : number m scale ≠ [] := by
  cases m
  case ofNat n => obtain ⟨_, h⟩ | ⟨_, _, _, h⟩ := digits_cases n scale <;> simp [number, h]
  case negSucc => simp [number]

theorem chars_opening (depth : Nat) (j : Json) :
    ∃ c cs, chars depth j = c :: cs ∧ j.opening = if isNumeral c then '0' else c := by
  cases j
  case null => exact ⟨_, _, by rw [chars], rfl⟩
  case bool value => cases value <;> exact ⟨_, _, by rw [chars], rfl⟩
  case num m scale =>
    obtain ⟨c, cs, h⟩ := List.exists_cons_of_ne_nil (number_ne_nil m scale)
    have hc : isNumeral c := isNumeral_of_mem (h ▸ List.mem_cons_self ..)
    exact ⟨c, cs, by rw [chars, h], by rw [if_pos hc, opening]⟩
  case str => exact ⟨_, _, by rw [chars, quote, List.cons_append], rfl⟩
  case arr items =>
    obtain ⟨cs, h⟩ := enclose_eq_cons '[' ']' depth (chars.itemChars (depth + 1) items)
    exact ⟨_, cs, by rw [chars, h], rfl⟩
  case obj members =>
    obtain ⟨cs, h⟩ := enclose_eq_cons '\x7b' '\x7d' depth (chars.memberChars (depth + 1) members)
    exact ⟨_, cs, by rw [chars, h], rfl⟩

theorem opening_eq {depth : Nat} {j k : Json} (h : chars depth j ++ x = chars depth k ++ y) :
    j.opening = k.opening := by
  -- Values of different kinds differ in the first character already.
  have ⟨c, cs, hj, hoj⟩ := chars_opening depth j
  have ⟨d, ds, hk, hok⟩ := chars_opening depth k
  rw [hj, hk] at h
  rw [hoj, hok, (List.cons.inj h).left]

theorem memberText_legible {depth : Nat} {m : String × Json} (h : Legible (chars depth) m.2) :
    Legible (memberText depth) m := by
  intro n x y hx hy he
  simp only [memberText, List.append_assoc] at he
  have ⟨hk, he⟩ := quote_append_inj he
  have ⟨hv, hxy⟩ := h n.2 x y hx hy (List.append_cancel_left he)
  exact ⟨Prod.ext hk hv, hxy⟩

def parts : Json → List Json
  | .arr items => items
  | .obj members => members.map Prod.snd
  | _ => []

theorem sizeOf_lt_of_mem_parts {i j : Json} (h : i ∈ j.parts) : sizeOf i < sizeOf j := by
  cases j
  case arr items =>
    rw [parts] at h
    have := List.sizeOf_lt_of_mem h
    rw [arr.sizeOf_spec]
    omega
  case obj members =>
    obtain ⟨⟨key, value⟩, hm, rfl⟩ := List.mem_map.mp h
    have := List.sizeOf_lt_of_mem hm
    rw [Prod.mk.sizeOf_spec] at this
    show sizeOf value < _
    rw [obj.sizeOf_spec]
    omega
  all_goals contradiction

theorem chars_legible_of_parts {depth : Nat} {j : Json}
    (hp : ∀ i ∈ j.parts, Legible (chars (depth + 1)) i) : Legible (chars depth) j := by
  intro k x y hx hy h
  have ho := opening_eq h
  obtain _ | (_ | _) | ⟨m, s⟩ | s | items | members := j <;>
    obtain _ | (_ | _) | ⟨n, t⟩ | t | others | others := k <;>
    simp only [opening, Char.reduceEq] at ho
  case null.null => exact ⟨rfl, List.append_cancel_left h⟩
  case bool.false.bool.false => exact ⟨rfl, List.append_cancel_left h⟩
  case bool.true.bool.true => exact ⟨rfl, List.append_cancel_left h⟩
  case num.num =>
    rw [chars, chars] at h
    have ⟨⟨hm, hs⟩, hxy⟩ := number_append_inj hx hy h
    exact ⟨by rw [hm, hs], hxy⟩
  case str.str =>
    rw [chars, chars] at h
    have ⟨hs, hxy⟩ := quote_append_inj h
    exact ⟨by rw [hs], hxy⟩
  case arr.arr =>
    rw [parts] at hp
    rw [chars, chars, itemChars_eq, itemChars_eq] at h
    have ⟨hi, hxy⟩ := enclose_append_inj (by decide) hp h
    exact ⟨by rw [hi], hxy⟩
  case obj.obj =>
    rw [chars, chars, memberChars_eq, memberChars_eq] at h
    have hl : ∀ m ∈ members, Legible (memberText (depth + 1)) m :=
      fun m hm => memberText_legible (hp m.2 (List.mem_map_of_mem hm))
    have ⟨hm, hxy⟩ := enclose_append_inj (by decide) hl h
    exact ⟨by rw [hm], hxy⟩

theorem chars_legible (depth : Nat) (j : Json) : Legible (chars depth) j := by
  apply chars_legible_of_parts
  intro i hi
  exact chars_legible (depth + 1) i
termination_by sizeOf j
decreasing_by exact sizeOf_lt_of_mem_parts hi

theorem pretty_injective : Function.Injective pretty := by
  intro j k h
  have hc := String.ofList_injective h
  exact (chars_legible 0 j k ['\n'] ['\n'] (.inr rfl) (.inr rfl) hc).left

end Json

theorem LensReport.encode_injective : Function.Injective LensReport.encode := by
  intro r q h
  have hd := congrArg LensReport.decode? h
  rw [LensReport.decode?_encode, LensReport.decode?_encode] at hd
  exact Option.some.inj hd

theorem LensReport.printed_injective :
    Function.Injective fun report : LensReport => report.encode.pretty :=
  Json.pretty_injective.comp LensReport.encode_injective

end TestLens
