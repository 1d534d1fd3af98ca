import Mathlib.Data.UInt
import TestLens.Collector

namespace TestLens

theorem toNat_succ {n : UInt32} (h : n.toNat + 1 < UInt32.size) : (n + 1).toNat = n.toNat + 1 := by
  rw [UInt32.toNat_add]
  exact Nat.mod_eq_of_lt h

namespace GroupId

theorem lt_iff {a b : GroupId} : a < b ↔ a.val.toNat < b.val.toNat :=
  UInt32.lt_iff_toNat_lt

theorem le_iff {a b : GroupId} : a ≤ b ↔ a.val.toNat ≤ b.val.toNat :=
  UInt32.le_iff_toNat_le

theorem eq_of_toNat_eq {a b : GroupId} (h : a.val.toNat = b.val.toNat) : a = b := by
  cases a
  cases b
  exact congrArg mk (UInt32.toNat_inj.mp h)

-- The identifier of the group before which `n` others were opened.
def after (n : Nat) : GroupId :=
  ⟨.ofNat (1 + n)⟩

theorem eq_after {id : GroupId} {n : Nat} (h : id.val.toNat = 1 + n) : id = after n := by
  rw [after, ← h, UInt32.ofNat_toNat]

end GroupId

namespace Call

def isUnnamed (call : Call) : Bool :=
  call.emits && call.argument.isNone

theorem opensGroup_of_single {call : Call} (h : call.role = .single) : call.opensGroup = false := by
  simp [opensGroup, h]

theorem opensGroup_of_other {call : Call} (h : call.role = .other) : call.opensGroup = false := by
  simp [opensGroup, h]

end Call

namespace Trail

variable {t : Trail} {call : Call}

-- The counters have room for a call.
def Fits (t : Trail) (call : Call) : Prop :=
  (call.opensGroup → t.nextId.val.toNat + 1 < UInt32.size) ∧
    (call.isUnnamed → t.unnamedCount.toNat + 1 < UInt32.size)

instance : Decidable (t.Fits call) :=
  inferInstanceAs (Decidable (_ ∧ _))

def opening (t : Trail) (call : Call) : Option GroupId :=
  if call.opensGroup then some t.nextId else none

def naming (t : Trail) (call : Call) : String :=
  match call.argument with
  | some argument => argument.name
  | none => Naming.unnamed (t.unnamedCount + 1)

def entered (t : Trail) (call : Call) : Trail where
  groups := (t.opening call).toList ++ t.groups
  frames := t.opening call :: t.frames
  nextId := if call.opensGroup then ⟨t.nextId.val + 1⟩ else t.nextId
  unnamedCount := if call.isUnnamed then t.unnamedCount + 1 else t.unnamedCount

def finding (t : Trail) (call : Call) : Finding :=
  if call.emits then .lens (t.naming call) t.current (t.opening call)
  else if call.role = .group then .skipped
  else .nothing

theorem named?_eq (he : call.emits) :
    t.named? call =
      if call.isUnnamed → t.unnamedCount.toNat + 1 < UInt32.size then
        some ({ t with unnamedCount := (t.entered call).unnamedCount }, t.naming call)
      else none := by
  unfold named? naming entered
  cases ha : call.argument
  case some => simp [Call.isUnnamed, ha]
  case none => split <;> simp_all [Call.isUnnamed, Naming.resolve, succWord?]

theorem openGroup?_eq :
    t.openGroup? =
      if t.nextId.val.toNat + 1 < UInt32.size then
        some ({ t with
          groups := t.nextId :: t.groups
          frames := some t.nextId :: t.frames
          nextId := ⟨t.nextId.val + 1⟩ }, t.nextId)
      else none := by
  unfold openGroup? GroupId.next? succWord?
  split <;> rfl

theorem enter_eq (t : Trail) (call : Call) :
    t.enter call = if t.Fits call then some (t.entered call, t.finding call) else none := by
  unfold enter
  split
  case _ hr =>
    have he : call.emits := by simp [Call.emits, hr]
    have ho := Call.opensGroup_of_single hr
    simp only [named?_eq he, Fits, ho]
    split <;> simp_all [entered, finding, opening, openPlain, current]
  case _ hr =>
    cases ho : call.opensGroup
    case true =>
      have he : call.emits := by simp [Call.emits, ho]
      rw [if_pos rfl, named?_eq he]
      by_cases hu : call.isUnnamed → t.unnamedCount.toNat + 1 < UInt32.size
      case neg =>
        rw [if_neg hu, if_neg (fun h => hu h.right)]
        rfl
      case pos =>
        rw [if_pos hu]
        by_cases hg : t.nextId.val.toNat + 1 < UInt32.size
        case neg =>
          rw [if_neg (fun h => hg (h.left ho))]
          simp [openGroup?_eq, hg]
        case pos =>
          rw [if_pos ⟨fun _ => hg, hu⟩]
          simp [openGroup?_eq, hg, entered, finding, opening, current, he, ho]
    case false =>
      have he : call.emits = false := by simp [Call.emits, ho, hr]
      simp [Fits, entered, finding, opening, openPlain, Call.isUnnamed, he, ho, hr]
  case _ hr =>
    have ho := Call.opensGroup_of_other hr
    have he : call.emits = false := by simp [Call.emits, ho, hr]
    simp [Fits, entered, finding, opening, openPlain, Call.isUnnamed, he, ho, hr]

theorem entered_nextId (h : t.Fits call) :
    (t.entered call).nextId.val.toNat = t.nextId.val.toNat + (if call.opensGroup then 1 else 0) := by
  cases ho : call.opensGroup <;> simp only [entered, ho]
  case false => rfl
  case true => exact toNat_succ (h.left ho)

theorem entered_unnamedCount (h : t.Fits call) :
    (t.entered call).unnamedCount.toNat =
      t.unnamedCount.toNat + (if call.isUnnamed then 1 else 0) := by
  cases hu : call.isUnnamed <;> simp only [entered, hu]
  case false => rfl
  case true => exact toNat_succ (h.right hu)

end Trail

namespace Step

def entered? : Step → Option Call
  | .enter call => some call
  | .leave _ => none

def opensGroup : Step → Bool
  | .enter call => call.opensGroup
  | .leave _ => false

def isUnnamed : Step → Bool
  | .enter call => call.isUnnamed
  | .leave _ => false

end Step

namespace Trail

-- The trail after a step, and after several.
def took (t : Trail) : Step → Trail
  | .enter call => t.entered call
  | .leave _ => t.leave

def ran (t : Trail) (steps : List Step) : Trail :=
  steps.foldl took t

-- The counters have room for all calls that are entered in some steps.
structure Room (t : Trail) (steps : List Step) : Prop where
  groups : t.nextId.val.toNat + steps.countP Step.opensGroup < UInt32.size
  unnamed : t.unnamedCount.toNat + steps.countP Step.isUnnamed < UInt32.size

variable {t : Trail} {call : Call} {steps more : List Step}

theorem ran_cons (t : Trail) (step : Step) (steps : List Step) :
    t.ran (step :: steps) = (t.took step).ran steps :=
  rfl

theorem room_nil (t : Trail) : t.Room [] where
  groups := t.nextId.val.toNat_lt
  unnamed := t.unnamedCount.toNat_lt

theorem room_start (hg : steps.countP Step.opensGroup ≤ 2 ^ 32 - 2)
    (hu : steps.countP Step.isUnnamed ≤ 2 ^ 32 - 1) : start.Room steps where
  groups := by
    have : start.nextId.val.toNat = 1 := rfl
    simp only [this, UInt32.size]
    omega
  unnamed := by
    have : start.unnamedCount.toNat = 0 := rfl
    simp only [this, UInt32.size]
    omega

theorem room_enter_iff :
    t.Room (.enter call :: steps) ↔ t.Fits call ∧ (t.entered call).Room steps := by
  have hg : (Step.enter call :: steps).countP Step.opensGroup = _ := List.countP_cons
  have hu : (Step.enter call :: steps).countP Step.isUnnamed = _ := List.countP_cons
  rw [Step.opensGroup] at hg
  rw [Step.isUnnamed] at hu
  constructor
  case mp =>
    intro ⟨groups, unnamed⟩
    have hf : t.Fits call := by
      constructor <;> intro h <;> simp only [h, if_true] at hg hu <;> omega
    have := entered_nextId hf
    have := entered_unnamedCount hf
    exact ⟨hf, by omega, by omega⟩
  case mpr =>
    intro ⟨hf, groups, unnamed⟩
    rw [entered_nextId hf] at groups
    rw [entered_unnamedCount hf] at unnamed
    exact ⟨by omega, by omega⟩

theorem room_leave_iff : t.Room (.leave call :: steps) ↔ t.leave.Room steps := by
  constructor
  case mp =>
    intro ⟨groups, unnamed⟩
    exact ⟨t.leave_nextId ▸ groups, t.leave_unnamedCount ▸ unnamed⟩
  case mpr =>
    intro ⟨groups, unnamed⟩
    exact ⟨t.leave_nextId ▸ groups, t.leave_unnamedCount ▸ unnamed⟩

-- What each step keeps, every run keeps.
theorem ran_induction {motive : Trail → Prop}
    (enter : ∀ t call, t.Fits call → motive t → motive (t.entered call))
    (leave : ∀ t, motive t → motive t.leave) (hr : t.Room steps) (h : motive t) :
    motive (t.ran steps) := by
  induction steps generalizing t
  case nil => exact h
  case cons step steps hi =>
    cases step
    case enter call =>
      have ⟨hf, hr⟩ := room_enter_iff.mp hr
      exact hi hr (enter t call hf h)
    case leave call => exact hi (room_leave_iff.mp hr) (leave t h)

theorem ran_counters (hr : t.Room steps) :
    (t.ran steps).nextId.val.toNat = t.nextId.val.toNat + steps.countP Step.opensGroup ∧
      (t.ran steps).unnamedCount.toNat =
        t.unnamedCount.toNat + steps.countP Step.isUnnamed := by
  induction steps generalizing t
  case nil => exact ⟨rfl, rfl⟩
  case cons step steps hi =>
    cases step
    case enter call =>
      have ⟨hf, hr⟩ := room_enter_iff.mp hr
      have ⟨hg, hu⟩ := hi hr
      rw [entered_nextId hf] at hg
      rw [entered_unnamedCount hf] at hu
      rw [ran_cons, took, List.countP_cons, List.countP_cons, Step.opensGroup, Step.isUnnamed]
      exact ⟨by omega, by omega⟩
    case leave call =>
      have ⟨hg, hu⟩ := hi (room_leave_iff.mp hr)
      rw [leave_nextId] at hg
      rw [leave_unnamedCount] at hu
      exact ⟨hg, hu⟩

theorem ran_append (t : Trail) (steps more : List Step) :
    t.ran (steps ++ more) = (t.ran steps).ran more := by
  simp [ran]

theorem Room.left (h : t.Room (steps ++ more)) : t.Room steps := by
  have ⟨hg, hu⟩ := h
  rw [List.countP_append] at hg hu
  exact ⟨by omega, by omega⟩

theorem Room.right (h : t.Room (steps ++ more)) : (t.ran steps).Room more := by
  have ⟨hg, hu⟩ := ran_counters h.left
  have ⟨groups, unnamed⟩ := h
  rw [List.countP_append] at groups unnamed
  exact ⟨by omega, by omega⟩

-- The open groups are those that the open calls opened, the later ones have the greater
-- identifiers, and the next identifier is greater than all of them.
structure Coherent (t : Trail) : Prop where
  groups_eq : t.groups = t.frames.filterMap id
  descending : t.groups.Pairwise (· > ·)
  first_le : ∀ id ∈ t.groups, GroupId.first ≤ id
  lt_nextId : ∀ id ∈ t.groups, id < t.nextId
  first_le_nextId : GroupId.first ≤ t.nextId

namespace Coherent

theorem start : start.Coherent where
  groups_eq := rfl
  descending := .nil
  first_le := nofun
  lt_nextId := nofun
  first_le_nextId := GroupId.le_iff.mpr (Nat.le_refl _)

theorem entered (h : t.Coherent) (hf : t.Fits call) : (t.entered call).Coherent := by
  have hn := entered_nextId hf
  cases ho : call.opensGroup
  case false =>
    have hg : (t.entered call).groups = t.groups := by simp [Trail.entered, opening, ho]
    have hi : (t.entered call).nextId = t.nextId := by simp [Trail.entered, ho]
    constructor
    case groups_eq => simp [Trail.entered, opening, ho, h.groups_eq]
    case descending => exact hg ▸ h.descending
    case first_le => exact hg ▸ h.first_le
    case lt_nextId => exact hg ▸ hi ▸ h.lt_nextId
    case first_le_nextId => exact hi ▸ h.first_le_nextId
  case true =>
    have hg : (t.entered call).groups = t.nextId :: t.groups := by simp [Trail.entered, opening, ho]
    have hl : t.nextId < (t.entered call).nextId := by
      rw [GroupId.lt_iff, hn, if_pos ho]
      omega
    constructor
    case groups_eq => simp [Trail.entered, opening, ho, h.groups_eq]
    case descending => exact hg ▸ List.pairwise_cons.mpr ⟨h.lt_nextId, h.descending⟩
    case first_le => exact hg ▸ List.forall_mem_cons.mpr ⟨h.first_le_nextId, h.first_le⟩
    case lt_nextId =>
      rw [hg]
      refine List.forall_mem_cons.mpr ⟨hl, fun id hm => ?_⟩
      have := h.lt_nextId id hm
      rw [GroupId.lt_iff] at this hl ⊢
      omega
    case first_le_nextId =>
      have := h.first_le_nextId
      rw [GroupId.le_iff] at this ⊢
      rw [GroupId.lt_iff] at hl
      omega

-- The group that leaving takes off the open groups is the one that the left call opened.
theorem current_eq (h : t.Coherent) {id : GroupId} (hf : t.frames.head? = some (some id)) :
    t.current = some id := by
  obtain ⟨frames, hf⟩ := List.head?_eq_some_iff.mp hf
  simp [current, h.groups_eq, hf]

theorem leave (h : t.Coherent) : t.leave.Coherent := by
  have hs : t.leave.groups <:+ t.groups := by
    unfold Trail.leave
    split
    case _ => exact List.suffix_refl _
    case _ => exact List.suffix_refl _
    case _ => exact List.tail_suffix _
  constructor
  case groups_eq =>
    unfold Trail.leave
    split
    case _ => exact h.groups_eq
    case _ hf => simp [h.groups_eq, hf]
    case _ hf => simp [h.groups_eq, hf]
  case descending => exact h.descending.sublist hs.sublist
  case first_le => exact fun id hm => h.first_le id (hs.subset hm)
  case lt_nextId => exact fun id hm => t.leave_nextId ▸ h.lt_nextId id (hs.subset hm)
  case first_le_nextId => exact t.leave_nextId ▸ h.first_le_nextId

theorem ran (h : t.Coherent) (hr : t.Room steps) : (t.ran steps).Coherent :=
  ran_induction (fun _ _ hf h => h.entered hf) (fun _ h => h.leave) hr h

end Coherent

end Trail

namespace Output

@[simp]
def event? : Output → Option Log.Event
  | .event e => some e
  | .lens _ => none

@[simp]
def lens? : Output → Option Lens
  | .event _ => none
  | .lens l => some l

end Output

namespace Subject

@[simp]
theorem filterMap_event?_outputs (s : Subject) (call : Call) (finding : Finding) :
    (s.outputs call finding).filterMap Output.event? = s.events call finding := by
  simp [outputs, Function.comp_def]

@[simp]
theorem filterMap_lens?_outputs (s : Subject) (call : Call) (finding : Finding) :
    (s.outputs call finding).filterMap Output.lens? = s.lenses call finding := by
  simp [outputs, Function.comp_def]

end Subject

namespace Collector

variable {c c' : Collector} {steps : List Step}

def took (c : Collector) : Step → Collector
  | .enter call =>
    { c with
      trail := c.trail.entered call
      lenses := c.lenses ++ c.subject.lenses call (c.trail.finding call)
      log := c.log ++ c.subject.events call (c.trail.finding call) }
  | .leave _ => c.leave

def ran (c : Collector) (steps : List Step) : Collector :=
  steps.foldl took c

theorem ran_cons (c : Collector) (step : Step) (steps : List Step) :
    c.ran (step :: steps) = (c.took step).ran steps :=
  rfl

theorem ran_trail (c : Collector) (steps : List Step) :
    (c.ran steps).trail = c.trail.ran steps := by
  induction steps generalizing c
  case nil => rfl
  case cons step steps hi => cases step <;> exact hi _

theorem foldl_write (c : Collector) (outputs : List Output) :
    outputs.foldl write c =
      { c with
        lenses := c.lenses ++ outputs.filterMap Output.lens?
        log := c.log ++ outputs.filterMap Output.event? } := by
  induction outputs generalizing c
  case nil => simp
  case cons output outputs hi => cases output <;> simp [hi, write, List.filterMap_cons]

theorem enter_eq (c : Collector) (call : Call) :
    c.enter call = if c.trail.Fits call then some (c.took (.enter call)) else none := by
  rw [enter, Trail.enter_eq]
  split
  case isFalse => rfl
  case isTrue => simp [foldl_write, took]

theorem steps_cons (c : Collector) (step : Step) (steps : List Step) :
    c.steps (step :: steps) = (c.step step).bind fun c => c.steps steps := by
  simp [Collector.steps, List.foldlM_cons]

theorem steps_eq_some_iff :
    c.steps steps = some c' ↔ c.trail.Room steps ∧ c' = c.ran steps := by
  induction steps generalizing c
  case nil => simp [Collector.steps, Trail.room_nil, ran, eq_comm]
  case cons step steps hi =>
    rw [steps_cons]
    cases step
    case enter call =>
      rw [Trail.room_enter_iff, step, enter_eq, and_assoc]
      split
      case isTrue hf => simp only [Option.bind_some, hi, hf, true_and]; rfl
      case isFalse hf => simp [hf]
    case leave call =>
      rw [Trail.room_leave_iff]
      exact hi

end Collector

end TestLens
