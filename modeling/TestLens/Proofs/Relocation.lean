import TestLens.Proofs.Entry
import TestLens.Proofs.Matching

namespace TestLens

def GroupId.MovedBy (k : Nat) (id moved : GroupId) : Prop :=
  moved.val.toNat = id.val.toNat + k

-- A name of the call, and its name after `k` more unnamed calls.
def Call.RenamedBy (k : Nat) (call : Call) (name moved : String) : Prop :=
  match call.argument with
  | some _ => moved = name
  | none =>
    ∃ n : Nat, name = "<unnamed-" ++ toString n ++ ">" ∧
      moved = "<unnamed-" ++ toString (n + k) ++ ">"

namespace Trail

variable {g m : Nat} {t u : Trail} {call : Call} {steps : List Step}

-- The trail `u` stands where `t` does, after `g` more groups and `m` more unnamed calls.
structure MovedBy (g m : Nat) (t u : Trail) : Prop where
  groups : List.Forall₂ (GroupId.MovedBy g) t.groups u.groups
  frames : List.Forall₂ (Option.Rel (GroupId.MovedBy g)) t.frames u.frames
  nextId : GroupId.MovedBy g t.nextId u.nextId
  unnamedCount : u.unnamedCount.toNat = t.unnamedCount.toNat + m

namespace MovedBy

theorem fits (h : MovedBy g m t u) (hf : u.Fits call) : t.Fits call := by
  have hn : u.nextId.val.toNat = t.nextId.val.toNat + g := h.nextId
  have hc := h.unnamedCount
  constructor
  case left =>
    intro ho
    have := hf.left ho
    omega
  case right =>
    intro hu
    have := hf.right hu
    omega

theorem current (h : MovedBy g m t u) :
    Option.Rel (GroupId.MovedBy g) t.current u.current := by
  obtain ⟨tgroups, _, _, _⟩ := t
  obtain ⟨ugroups, _, _, _⟩ := u
  obtain _ | ⟨hid, _⟩ := h.groups
  case nil => exact .none
  case cons => exact .some hid

theorem opening (h : MovedBy g m t u) (call : Call) :
    Option.Rel (GroupId.MovedBy g) (t.opening call) (u.opening call) := by
  rw [Trail.opening, Trail.opening]
  split
  case isTrue => exact .some h.nextId
  case isFalse => exact .none

theorem naming (h : MovedBy g m t u) (hf : u.Fits call) (he : call.emits) :
    call.RenamedBy m (t.naming call) (u.naming call) := by
  rw [Call.RenamedBy, Trail.naming, Trail.naming]
  cases ha : call.argument
  case some => rfl
  case none =>
    have hu : call.isUnnamed := by simp [Call.isUnnamed, he, ha]
    have ht := toNat_succ ((h.fits hf).right hu)
    have hm := toNat_succ (hf.right hu)
    rw [h.unnamedCount] at hm
    refine ⟨t.unnamedCount.toNat + 1, ?_, ?_⟩
    case refine_1 => rw [Naming.unnamed, ht]
    case refine_2 => rw [Naming.unnamed, hm, Nat.add_right_comm]

theorem entered (h : MovedBy g m t u) (hf : u.Fits call) :
    MovedBy g m (t.entered call) (u.entered call) := by
  constructor
  case groups =>
    refine List.rel_append ?_ h.groups
    rw [Trail.opening, Trail.opening]
    split
    case isTrue => exact .cons h.nextId .nil
    case isFalse => exact .nil
  case frames => exact .cons (h.opening call) h.frames
  case nextId =>
    have : u.nextId.val.toNat = t.nextId.val.toNat + g := h.nextId
    rw [GroupId.MovedBy, entered_nextId hf, entered_nextId (h.fits hf)]
    omega
  case unnamedCount =>
    have := h.unnamedCount
    rw [entered_unnamedCount hf, entered_unnamedCount (h.fits hf)]
    omega

theorem leave (h : MovedBy g m t u) : MovedBy g m t.leave u.leave := by
  -- Both trails leave the same kind of call: one that opened a group, or one that did not.
  obtain ⟨tgroups, tframes, _, _⟩ := t
  obtain ⟨ugroups, uframes, _, _⟩ := u
  have ⟨hg, hf, hn, hc⟩ := h
  cases hf
  case nil => exact ⟨hg, .nil, hn, hc⟩
  case cons hframe hf =>
    cases hframe
    case none => exact ⟨hg, hf, hn, hc⟩
    case some =>
      refine ⟨?_, hf, hn, hc⟩
      cases hg
      case nil => exact .nil
      case cons hg => exact hg

theorem ran (h : MovedBy g m t u) (hr : u.Room steps) :
    MovedBy g m (t.ran steps) (u.ran steps) := by
  induction steps generalizing t u
  case nil => exact h
  case cons step steps hi =>
    cases step
    case enter call =>
      have ⟨hf, hr⟩ := room_enter_iff.mp hr
      exact hi (h.entered hf) hr
    case leave call => exact hi h.leave (room_leave_iff.mp hr)

theorem stack (h : MovedBy g m t u) : List.Forall₂ (GroupId.MovedBy g) t.stack u.stack :=
  List.forall₂_reverse_iff.mpr h.groups

end MovedBy

end Trail

structure Entry.MovedBy (g m : Nat) (e moved : Entry) : Prop where
  call : moved.call = e.call
  name : e.call.RenamedBy m e.name moved.name
  group : Option.Rel (GroupId.MovedBy g) e.group moved.group
  id : Option.Rel (GroupId.MovedBy g) e.id moved.id

structure Lens.MovedBy (g m : Nat) (call : Call) (lens moved : Lens) : Prop where
  name : call.RenamedBy m lens.arguments.name moved.arguments.name
  group : Option.Rel (GroupId.MovedBy g) lens.data.group moved.data.group
  id : Option.Rel (GroupId.MovedBy g) lens.data.id moved.data.id
  rest : moved =
    { lens with
      arguments := { lens.arguments with name := moved.arguments.name }
      data := { lens.data with group := moved.data.group, id := moved.data.id } }

-- The lenses of some calls, three for each of them, and the same lenses moved.
inductive Lens.AllMovedBy (g m : Nat) : List Call → List Lens → List Lens → Prop
  | nil : AllMovedBy g m [] [] []
  | call {call : Call} {triple triple' : List Lens} {calls : List Call} {lenses lenses' : List Lens}
      (three : triple.length = 3) (head : List.Forall₂ (Lens.MovedBy g m call) triple triple')
      (tail : AllMovedBy g m calls lenses lenses') :
    AllMovedBy g m (call :: calls) (triple ++ lenses) (triple' ++ lenses')

namespace Entry.MovedBy

variable {g m : Nat}

theorem lenses {e moved : Entry} (h : Entry.MovedBy g m e moved) (subject : Subject) :
    List.Forall₂ (Lens.MovedBy g m e.call) (e.lenses subject) (moved.lenses subject) := by
  rw [Entry.lenses, Entry.lenses, h.call, Lens.triple, Lens.triple, List.forall₂_map_left_iff,
    List.forall₂_map_right_iff, List.forall₂_same]
  exact fun kind _ => ⟨h.name, h.group, h.id, rfl⟩

theorem allLenses {es moved : List Entry} (h : List.Forall₂ (Entry.MovedBy g m) es moved)
    (subject : Subject) :
    Lens.AllMovedBy g m (es.map Entry.call) (es.flatMap (Entry.lenses subject))
      (moved.flatMap (Entry.lenses subject)) := by
  induction h
  case nil => exact .nil
  case cons h _ hi => exact .call rfl (h.lenses subject) hi

end Entry.MovedBy

namespace Trail.MovedBy

variable {g m : Nat} {t u : Trail} {steps : List Step}

theorem entry {call : Call} (h : MovedBy g m t u) (hf : u.Fits call) (he : call.emits) :
    Entry.MovedBy g m (t.entry call) (u.entry call) where
  call := rfl
  name := h.naming hf he
  group := h.current
  id := h.opening call

theorem entries (h : MovedBy g m t u) (hr : u.Room steps) :
    List.Forall₂ (Entry.MovedBy g m) (t.entries steps) (u.entries steps) := by
  induction steps generalizing t u
  case nil => exact .nil
  case cons step steps hi =>
    cases step
    case leave call => exact hi h.leave (room_leave_iff.mp hr)
    case enter call =>
      have ⟨hf, hr⟩ := room_enter_iff.mp hr
      refine List.rel_append ?_ (hi (h.entered hf) hr)
      cases he : call.emits
      case false => simp [Step.emitted?, he]
      case true => simpa [Step.emitted?, he] using h.entry hf he

-- A run that leaves no call open leaves no group open either, so only the counters differ from
-- those at the start.
theorem of_closed (hr : Trail.start.Room steps) (ho : (Trail.start.ran steps).frames = []) :
    MovedBy (Trail.start.ran steps).allocated.toNat (Trail.start.ran steps).unnamedCount.toNat
      .start (Trail.start.ran steps) := by
  have hg := (Coherent.start.ran hr).groups_eq
  rw [ho] at hg
  constructor
  case groups =>
    rw [hg]
    exact .nil
  case frames =>
    rw [ho]
    exact .nil
  case nextId =>
    rw [GroupId.MovedBy, (ran_represents hr).allocated_eq]
    exact (ran_counters hr).left
  case unnamedCount => exact (Nat.zero_add _).symm

end Trail.MovedBy

namespace Collector

theorem ran_append_lenses (c : Collector) (first second : List Step) :
    (c.ran (first ++ second)).lenses.toList =
      (c.ran first).lenses.toList ++
        ((c.trail.ran first).entries second).flatMap (Entry.lenses c.subject) := by
  rw [ran_lenses, ran_lenses, Trail.entries_append, List.flatMap_append, List.append_assoc]

theorem start_ran_trail (subject : Subject) (sink : Array Lens) (steps : List Step) :
    ((start subject sink).ran steps).trail = Trail.start.ran steps :=
  ran_trail _ _

-- The second run starts with no call open, so it sees nothing of the first one but its counters.
theorem steps_append_relocates (subject : Subject) (sink : Array Lens) (first second : List Step)
    (c₁ : Collector) (hs : (start subject sink).steps first = some c₁)
    (ho : c₁.trail.frames = [])
    (hg : (first ++ second).countP Step.opensGroup ≤ 2 ^ 32 - 2)
    (hu : (first ++ second).countP Step.isUnnamed ≤ 2 ^ 32 - 1) :
    ∃ c₂ c moved, (start subject #[]).steps second = some c₂ ∧
      (start subject sink).steps (first ++ second) = some c ∧
      c.lenses.toList = c₁.lenses.toList ++ moved ∧
      Lens.AllMovedBy c₁.trail.allocated.toNat c₁.trail.unnamedCount.toNat
        (second.filterMap Step.emitted?) c₂.lenses.toList moved ∧
      List.Forall₂ (GroupId.MovedBy c₁.trail.allocated.toNat) c₂.trail.stack c.trail.stack ∧
      c.trail.allocated.toNat = c₁.trail.allocated.toNat + c₂.trail.allocated.toNat ∧
      c.trail.unnamedCount.toNat =
        c₁.trail.unnamedCount.toNat + c₂.trail.unnamedCount.toNat := by
  have hr := Trail.room_start hg hu
  rw [List.countP_append] at hg hu
  have hr₁ : Trail.start.Room first := hr.left
  have hr₂ : Trail.start.Room second := Trail.room_start (by omega) (by omega)
  obtain ⟨_, rfl⟩ := steps_eq_some_iff.mp hs
  rw [start_ran_trail] at ho ⊢
  have hm := Trail.MovedBy.of_closed hr₁ ho
  refine ⟨(start subject #[]).ran second, (start subject sink).ran (first ++ second),
    ((Trail.start.ran first).entries second).flatMap (Entry.lenses subject),
    steps_eq_some_iff.mpr ⟨hr₂, rfl⟩, steps_eq_some_iff.mpr ⟨hr, rfl⟩, ran_append_lenses _ _ _,
    ?_, ?_, ?_, ?_⟩
  case refine_1 =>
    rw [← Trail.entries_calls .start, ran_lenses]
    exact Entry.MovedBy.allLenses (hm.entries hr.right) subject
  case refine_2 =>
    rw [start_ran_trail, start_ran_trail, Trail.ran_append]
    exact (hm.ran hr.right).stack
  case refine_3 =>
    rw [start_ran_trail, start_ran_trail, (Trail.ran_represents hr).allocated_eq,
      (Trail.ran_represents hr₁).allocated_eq, (Trail.ran_represents hr₂).allocated_eq,
      List.countP_append]
  case refine_4 =>
    have hc := (Trail.ran_counters hr).right
    have hc₁ := (Trail.ran_counters hr₁).right
    have hc₂ := (Trail.ran_counters hr₂).right
    have hz : Trail.start.unnamedCount.toNat = 0 := rfl
    rw [List.countP_append] at hc
    rw [start_ran_trail, start_ran_trail]
    omega

def settled : List Step :=
  [.enter (Step.ragged.bare .group true), .enter (Step.ragged.bare .single false),
   .leave (Step.ragged.bare .single false), .leave (Step.ragged.bare .group true)]

theorem settled_ragged_relocates :
    ∃ c₂ c, (start ⟨"a_spec.rb", .probed true false, false⟩ #[]).steps Step.ragged = some c₂ ∧
      (start ⟨"a_spec.rb", .probed true false, false⟩ #[]).steps (settled ++ Step.ragged) = some c ∧
      List.Forall₂ (GroupId.MovedBy 1) c₂.trail.stack c.trail.stack ∧
      c.trail.allocated.toNat = 1 + c₂.trail.allocated.toNat ∧
      c.trail.unnamedCount.toNat = 2 + c₂.trail.unnamedCount.toNat := by
  have ⟨c₂, c, _, hs₂, hs, _, _, hstack, hg, hu⟩ :=
    steps_append_relocates ⟨"a_spec.rb", .probed true false, false⟩ #[] settled Step.ragged
      ((start ⟨"a_spec.rb", .probed true false, false⟩ #[]).ran settled) (by decide) (by decide)
      (by decide) (by decide)
  exact ⟨c₂, c, hs₂, hs, hstack, hg, hu⟩

end Collector

end TestLens
