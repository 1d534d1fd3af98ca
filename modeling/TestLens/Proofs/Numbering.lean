import TestLens.Proofs.Legibility
import TestLens.Proofs.Trail

namespace TestLens

namespace Naming

-- The name with a number. For words this is `unnamed`.
def label (n : Nat) : String :=
  "<unnamed-" ++ toString n ++ ">"

theorem label_injective {m n : Nat} (h : label m = label n) : m = n := by
  have h := (String.append_right_inj _).mp ((String.append_left_inj _).mp h)
  have h := congrArg String.toList h
  rw [Nat.toString_eq_repr, Nat.toString_eq_repr, Nat.toList_repr, Nat.toList_repr] at h
  exact Json.toDigits_injective h

def outcome (count : UInt32) (argument : Option Argument) : Option String × UInt32 :=
  match resolve count argument with
  | some (name, count) => (some name, count)
  | none => (none, count)

def counterAfter (count : UInt32) (results : List (Option String × UInt32)) : UInt32 :=
  (results.map Prod.snd).getLastD count

def synthesized (arguments : List (Option Argument)) (results : List (Option String × UInt32)) :
    List String :=
  (arguments.zip results).filterMap fun x => if x.1.isNone then x.2.1 else none

structure Numbered (count : UInt32) (arguments : List (Option Argument))
    (results : List (Option String × UInt32)) : Prop where
  length_eq : results.length = arguments.length
  counter : ∀ i, (counterAfter count (results.take i)).toNat =
    min (count.toNat + (arguments.take i).countP Option.isNone) (2 ^ 32 - 1)
  ascending : (count :: results.map Prod.snd).Pairwise (· ≤ ·)
  present : ∀ i argument, arguments[i]? = some (some argument) →
    results[i]? = some (some argument.name, counterAfter count (results.take i))
  -- The argument is the `k`-th one that is absent.
  absent : ∀ i k, arguments[i]? = some none → (arguments.take (i + 1)).countP Option.isNone = k →
    results[i]? = some (
      if count.toNat + k ≤ 2 ^ 32 - 1 then
        (some (label (count.toNat + k)), .ofNat (count.toNat + k))
      else (none, .ofNat (2 ^ 32 - 1)))
  distinct : (synthesized arguments results).Nodup

variable {count : UInt32} {arguments : List (Option Argument)}

theorem outcome_some (count : UInt32) (argument : Argument) :
    outcome count (some argument) = (some argument.name, count) :=
  rfl

theorem outcome_none (count : UInt32) :
    outcome count none =
      if count.toNat + 1 < 2 ^ 32 then (some (label (count.toNat + 1)), .ofNat (count.toNat + 1))
      else (none, count) := by
  split
  case isTrue h =>
    have hn : succWord? count = some (count + 1) := if_pos h
    have hw : .ofNat (count.toNat + 1) = count + 1 := by rw [← toNat_succ h, UInt32.ofNat_toNat]
    rw [outcome, resolve, hn, Option.map_some, unnamed, toNat_succ h, label, hw]
  case isFalse h =>
    have hn : succWord? count = none := if_neg h
    rw [outcome, resolve, hn, Option.map_none]

theorem outcome_counter (count : UInt32) (argument : Option Argument) :
    (outcome count argument).2.toNat =
      min (count.toNat + if argument.isNone then 1 else 0) (2 ^ 32 - 1) := by
  have hc := count.toNat_lt
  cases argument
  case some argument =>
    simp only [outcome_some, Option.isNone_some, Bool.false_eq_true, if_false]
    omega
  case none =>
    simp only [outcome_none, Option.isNone_none, if_true]
    split
    case isTrue h =>
      rw [UInt32.toNat_ofNat_of_lt' h]
      omega
    case isFalse h =>
      show count.toNat = _
      omega

theorem le_outcome (count : UInt32) (argument : Option Argument) :
    count ≤ (outcome count argument).2 := by
  have := count.toNat_lt
  rw [UInt32.le_iff_toNat_le, outcome_counter]
  omega

theorem resolveAll_cons (count : UInt32) (argument : Option Argument)
    (arguments : List (Option Argument)) :
    resolveAll count (argument :: arguments) =
      outcome count argument :: resolveAll (outcome count argument).2 arguments := by
  rw [resolveAll, outcome]
  cases resolve count argument <;> rfl

theorem counterAfter_cons (count : UInt32) (result : Option String × UInt32)
    (results : List (Option String × UInt32)) :
    counterAfter count (result :: results) = counterAfter result.2 results := by
  rw [counterAfter, List.map_cons, List.getLastD_cons, counterAfter]

theorem length_resolveAll (count : UInt32) (arguments : List (Option Argument)) :
    (resolveAll count arguments).length = arguments.length := by
  induction arguments generalizing count
  case nil => rfl
  case cons argument arguments hi => rw [resolveAll_cons, List.length_cons, hi, List.length_cons]

theorem resolveAll_counter (count : UInt32) (arguments : List (Option Argument)) (i : Nat) :
    (counterAfter count ((resolveAll count arguments).take i)).toNat =
      min (count.toNat + (arguments.take i).countP Option.isNone) (2 ^ 32 - 1) := by
  have hc (n : UInt32) : n.toNat = min (n.toNat + 0) (2 ^ 32 - 1) :=
    (Nat.min_eq_left (Nat.le_sub_one_of_lt n.toNat_lt)).symm
  induction arguments generalizing count i
  case nil =>
    rw [resolveAll, List.take_nil, List.take_nil]
    exact hc count
  case cons argument arguments hi =>
    cases i
    case zero =>
      rw [List.take_zero, List.take_zero]
      exact hc count
    case succ i =>
      rw [resolveAll_cons, List.take_succ_cons, counterAfter_cons, hi, outcome_counter,
        List.take_succ_cons, List.countP_cons]
      omega

theorem resolveAll_chain (count : UInt32) (arguments : List (Option Argument)) :
    (count :: (resolveAll count arguments).map Prod.snd).IsChain (· ≤ ·) := by
  induction arguments generalizing count
  case nil => exact .singleton count
  case cons argument arguments hi =>
    rw [resolveAll_cons, List.map_cons, List.isChain_cons_cons]
    exact ⟨le_outcome count argument, hi _⟩

theorem getElem?_resolveAll (count : UInt32) (arguments : List (Option Argument)) (i : Nat) :
    (resolveAll count arguments)[i]? =
      arguments[i]?.map (outcome (counterAfter count ((resolveAll count arguments).take i))) := by
  -- A result depends on the arguments before it through the counter alone.
  induction arguments generalizing count i
  case nil => rfl
  case cons argument arguments hi =>
    rw [resolveAll_cons]
    cases i
    case zero => rfl
    case succ i =>
      rw [List.getElem?_cons_succ, List.getElem?_cons_succ, List.take_succ_cons, counterAfter_cons]
      exact hi _ i

theorem countP_take_succ {i : Nat} (h : arguments[i]? = some none) :
    (arguments.take (i + 1)).countP Option.isNone =
      (arguments.take i).countP Option.isNone + 1 := by
  rw [List.take_add_one, h, List.countP_append]
  rfl

theorem resolveAll_absent {i k : Nat} (h : arguments[i]? = some none)
    (hk : (arguments.take (i + 1)).countP Option.isNone = k) :
    (resolveAll count arguments)[i]? = some (
      if count.toNat + k ≤ 2 ^ 32 - 1 then
        (some (label (count.toNat + k)), .ofNat (count.toNat + k))
      else (none, .ofNat (2 ^ 32 - 1))) := by
  have hc := resolveAll_counter count arguments i
  rw [countP_take_succ h] at hk
  rw [getElem?_resolveAll, h, Option.map_some, outcome_none]
  -- All that matters of the arguments before is where they leave the counter.
  generalize counterAfter count ((resolveAll count arguments).take i) = before at hc ⊢
  by_cases hl : before.toNat + 1 < 2 ^ 32
  case pos =>
    have hb : before.toNat + 1 = count.toNat + k := by omega
    rw [if_pos hl, if_pos (by omega), hb]
  case neg =>
    have hb : before.toNat = 2 ^ 32 - 1 := by omega
    rw [if_neg hl, if_neg (by omega), ← hb, UInt32.ofNat_toNat]

-- The names that are made up bear the numbers after the counter, up to the greatest word.
theorem synthesized_eq (count : UInt32) (arguments : List (Option Argument)) :
    synthesized arguments (resolveAll count arguments) =
      (List.range' (count.toNat + 1)
        (min (arguments.countP Option.isNone) (2 ^ 32 - 1 - count.toNat))).map label := by
  induction arguments generalizing count
  case nil => simp [synthesized]
  case cons argument arguments hi =>
    rw [resolveAll_cons]
    cases argument
    case some argument =>
      rw [List.countP_cons_of_neg (by simp)]
      exact hi count
    case none =>
      rw [List.countP_cons_of_pos rfl, outcome_none]
      split
      case isTrue h =>
        have hm : min (arguments.countP Option.isNone + 1) (2 ^ 32 - 1 - count.toNat) =
            min (arguments.countP Option.isNone) (2 ^ 32 - 1 - (count.toNat + 1)) + 1 := by omega
        have hi := hi (.ofNat (count.toNat + 1))
        rw [UInt32.toNat_ofNat_of_lt' h] at hi
        rw [hm, List.range'_succ, List.map_cons, ← hi]
        rfl
      case isFalse h =>
        -- No number is left, neither for this argument nor for any behind it.
        have hz : 2 ^ 32 - 1 - count.toNat = 0 := by omega
        have hi := hi count
        rw [hz, Nat.min_zero] at hi ⊢
        exact hi

theorem synthesized_nodup (count : UInt32) (arguments : List (Option Argument)) :
    (synthesized arguments (resolveAll count arguments)).Nodup := by
  rw [synthesized_eq]
  exact List.Nodup.map (fun _ _ => label_injective) List.nodup_range'

theorem resolveAll_numbered (count : UInt32) (arguments : List (Option Argument)) :
    Numbered count arguments (resolveAll count arguments) where
  length_eq := length_resolveAll count arguments
  counter := resolveAll_counter count arguments
  ascending := List.isChain_iff_pairwise.mp (resolveAll_chain count arguments)
  present := by
    intro i argument h
    rw [getElem?_resolveAll, h, Option.map_some, outcome_some]
  absent := fun i k h hk => resolveAll_absent h hk
  distinct := synthesized_nodup count arguments

-- Two numbers are left, for four arguments that are absent.
def brink : List (Option Argument) :=
  [none, some (.string "a"), none, none, some (.call "B"), none]

theorem brink_numbered :
    Numbered 4294967293 brink (resolveAll 4294967293 brink) ∧
      (resolveAll 4294967293 brink)[2]? = some (some "<unnamed-4294967295>", 4294967295) ∧
      (resolveAll 4294967293 brink)[3]? = some (none, 4294967295) ∧
      (resolveAll 4294967293 brink)[4]? = some (some "<B>", 4294967295) ∧
      synthesized brink (resolveAll 4294967293 brink) =
        ["<unnamed-4294967294>", "<unnamed-4294967295>"] := by
  have h := resolveAll_numbered 4294967293 brink
  refine ⟨h, ?_, ?_, ?_, ?_⟩
  case refine_1 => exact (h.absent 2 2 rfl rfl).trans (by decide)
  case refine_2 => exact (h.absent 3 3 rfl rfl).trans (by decide)
  case refine_3 => exact (h.present 4 (.call "B") rfl).trans (by decide)
  case refine_4 => decide

end Naming

end TestLens
