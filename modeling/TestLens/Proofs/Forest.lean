import Mathlib.Data.List.Forall2
import TestLens.Proofs.Entry
import TestLens.Proofs.Matching

namespace TestLens

-- The lenses of one call: one of each kind, alike in everything that tells which call it is.
structure Triple (subject : Subject) (call : Call) (lenses : List Lens) : Prop where
  kinds : lenses.map (fun lens => lens.data.kind) = [.test, .testInTerminal, .debug]
  alike : ∀ a ∈ lenses, ∀ b ∈ lenses,
    a.arguments.path = b.arguments.path ∧ a.arguments.name = b.arguments.name ∧
      a.arguments.location = b.arguments.location ∧ a.range = b.range ∧
      a.data.group = b.data.group ∧ a.data.id = b.data.id
  place : ∀ a ∈ lenses,
    a.arguments.path = subject.path ∧ a.arguments.location = call.extent.location
  isSome_id : ∀ a ∈ lenses, a.data.id.isSome = call.opensGroup

def Triple.id? (lenses : List Lens) : Option GroupId :=
  lenses.head?.bind fun lens => lens.data.id

-- Whichever lens of a group is taken, going up from group to group ends at a lens outside of any.
inductive Rooted (all : List Lens) : Lens → Prop
  | top {lens : Lens} (h : lens.data.group = none) : Rooted all lens
  | inside {lens : Lens} {id : GroupId} (h : lens.data.group = some id)
      (exist : ∃ parent ∈ all, parent.data.id = some id)
      (rooted : ∀ parent ∈ all, parent.data.id = some id → Rooted all parent) : Rooted all lens

structure Forest (triples : List (List Lens)) (groups : Nat) : Prop where
  numbered : (triples.filterMap Triple.id?).map (fun id => id.val.toNat) = List.range' 1 groups
  earlier : ∀ before triple after, triples = before ++ triple :: after →
    ∀ lens ∈ triple, ∀ id, lens.data.group = some id → ∃ t ∈ before, Triple.id? t = some id
  ascending : ∀ lens ∈ triples.flatten, ∀ group id,
    lens.data.group = some group → lens.data.id = some id → group < id
  rooted : ∀ lens ∈ triples.flatten, Rooted triples.flatten lens

namespace Entry

variable {subject : Subject} {e : Entry}

theorem Shows.triple {lenses : List Lens} (h : e.Shows subject lenses)
    (ho : e.id.isSome = e.call.opensGroup) : Triple subject e.call lenses where
  kinds := h.kinds
  alike := by
    intro a ha b hb
    simp only [h.path a ha, h.path b hb, h.name a ha, h.name b hb, h.location a ha, h.location b hb,
      h.range a ha, h.range b hb, h.group a ha, h.group b hb, h.id a ha, h.id b hb, and_self]
  place := fun a ha => ⟨h.path a ha, h.location a ha⟩
  isSome_id := fun a ha => h.id a ha ▸ ho

end Entry

namespace Trail

variable {steps : List Step} {e : Entry} {before after : List Entry}

theorem isSome_opening (t : Trail) (call : Call) : (t.opening call).isSome = call.opensGroup := by
  cases h : call.opensGroup <;> simp [opening, h]

theorem isSome_id_of_mem_entries {t : Trail} (h : e ∈ t.entries steps) :
    e.id.isSome = e.call.opensGroup := by
  have ⟨before, after, hs⟩ := List.append_of_mem h
  have ⟨first, call, _, _, _, _, he⟩ := entries_split hs
  exact he ▸ isSome_opening _ call

theorem group_lt_nextId {call : Call} (hr : start.Room steps) {id : GroupId}
    (h : ((start.ran steps).entry call).group = some id) : id < (start.ran steps).nextId :=
  (Coherent.start.ran hr).lt_nextId id (List.mem_of_head? h)

theorem exists_earlier_entry (hr : start.Room steps)
    (hs : start.entries steps = before ++ e :: after) {id : GroupId} (h : e.group = some id) :
    ∃ p ∈ before, p.id = some id := by
  -- The group around an entry was open when its call was entered, so it is below the next
  -- identifier of that moment.
  have ⟨first, call, last, hsteps, _, hb, he⟩ := entries_split hs
  subst he
  have hr : start.Room first := (hsteps ▸ hr).left
  have hc := Coherent.start.ran hr
  have hm : id ∈ (start.ran first).groups := List.mem_of_head? h
  have hge := GroupId.le_iff.mp (hc.first_le id hm)
  have hlt := GroupId.lt_iff.mp (hc.lt_nextId id hm)
  have hn : id.val.toNat ∈ (before.filterMap Entry.id).map (fun id => id.val.toNat) := by
    rw [hb, entries_ids hr, List.mem_range'_1]
    rw [(ran_counters hr).left] at hlt
    exact ⟨hge, hlt⟩
  have ⟨id', hm', hid⟩ := List.mem_map.mp hn
  have ⟨p, hp, hpid⟩ := List.mem_filterMap.mp hm'
  exact ⟨p, hp, GroupId.eq_of_toNat_eq hid ▸ hpid⟩

theorem group_lt_id (hr : start.Room steps) (hm : e ∈ start.entries steps) {group id : GroupId}
    (hg : e.group = some group) (hi : e.id = some id) : group < id := by
  have ⟨before, after, hs⟩ := List.append_of_mem hm
  have ⟨first, call, last, hsteps, _, _, he⟩ := entries_split hs
  subst he
  have hlt := group_lt_nextId (hsteps ▸ hr).left hg
  have ⟨_, ho⟩ := Option.ite_none_right_eq_some.mp hi
  exact Option.some.inj ho ▸ hlt

end Trail

theorem Rooted.of_ascending {all : List Lens}
    (exist : ∀ lens ∈ all, ∀ id, lens.data.group = some id →
      ∃ parent ∈ all, parent.data.id = some id)
    (ascending : ∀ lens ∈ all, ∀ group id,
      lens.data.group = some group → lens.data.id = some id → group < id) :
    ∀ lens ∈ all, Rooted all lens := by
  -- Groups have greater identifiers than the groups around them, so the way up from a lens can be
  -- followed by induction on the identifier of the group around it.
  have groups : ∀ n, ∀ id : GroupId, id.val.toNat = n →
      ∀ parent ∈ all, parent.data.id = some id → Rooted all parent := by
    intro n
    induction n using Nat.strongRecOn
    case ind n hi =>
      intro id hn parent hm hid
      cases hg : parent.data.group
      case none => exact .top hg
      case some group =>
        have hlt := GroupId.lt_iff.mp (ascending parent hm group id hg hid)
        exact .inside hg (exist parent hm group hg) (hi _ (hn ▸ hlt) group rfl)
  intro lens hm
  cases hg : lens.data.group
  case none => exact .top hg
  case some group => exact .inside hg (exist lens hm group hg) (groups _ group rfl)

namespace Trail

variable {steps : List Step}

def triples (subject : Subject) (steps : List Step) : List (List Lens) :=
  (start.entries steps).map (Entry.lenses subject)

theorem triples_forall₂ (subject : Subject) (steps : List Step) :
    List.Forall₂ (Triple subject) (steps.filterMap Step.emitted?) (triples subject steps) := by
  rw [← entries_calls start, triples, List.forall₂_map_left_iff, List.forall₂_map_right_iff,
    List.forall₂_same]
  exact fun e h => (e.lenses_shows subject).triple (isSome_id_of_mem_entries h)

theorem triples_earlier {subject : Subject} (hr : start.Room steps)
    {before after : List (List Lens)} {triple : List Lens}
    (h : triples subject steps = before ++ triple :: after) {lens : Lens} (hl : lens ∈ triple)
    {id : GroupId} (hg : lens.data.group = some id) : ∃ t ∈ before, Triple.id? t = some id := by
  obtain ⟨es, more, hs, hb, hm⟩ := List.map_eq_append_iff.mp h
  obtain ⟨e, rest, rfl, ht, _⟩ := List.map_eq_cons_iff.mp hm
  have hg : e.group = some id := (e.lenses_shows subject).group lens (ht ▸ hl) ▸ hg
  have ⟨p, hp, hid⟩ := exists_earlier_entry hr hs hg
  exact ⟨p.lenses subject, hb ▸ List.mem_map_of_mem hp, hid⟩

theorem mem_triples_flatten {subject : Subject} {lens : Lens} :
    lens ∈ (triples subject steps).flatten ↔
      ∃ e ∈ start.entries steps, lens ∈ e.lenses subject := by
  simp [triples]

theorem triples_ascending {subject : Subject} (hr : start.Room steps) :
    ∀ lens ∈ (triples subject steps).flatten, ∀ group id,
      lens.data.group = some group → lens.data.id = some id → group < id := by
  intro lens hl group id hg hi
  have ⟨e, he, hl⟩ := mem_triples_flatten.mp hl
  have h := e.lenses_shows subject
  exact group_lt_id hr he (h.group lens hl ▸ hg) (h.id lens hl ▸ hi)

theorem triples_forest (subject : Subject) (hr : start.Room steps) :
    Forest (triples subject steps) (steps.countP Step.opensGroup) where
  numbered := by
    rw [triples, List.filterMap_map]
    exact entries_ids hr
  earlier := fun _ _ _ h _ hl _ hg => triples_earlier hr h hl hg
  ascending := triples_ascending hr
  rooted := by
    refine Rooted.of_ascending ?_ (triples_ascending hr)
    intro lens hl id hg
    have ⟨triple, ht, hl⟩ := List.mem_flatten.mp hl
    have ⟨before, after, hs⟩ := List.append_of_mem ht
    have ⟨t, hm, hid⟩ := triples_earlier hr hs hl hg
    have ⟨parent, hp, hid⟩ := Option.bind_eq_some_iff.mp hid
    have hm : t ∈ triples subject steps := hs ▸ List.mem_append_left _ hm
    exact ⟨parent, List.mem_flatten_of_mem hm (List.mem_of_head? hp), hid⟩

end Trail

namespace Collector

theorem steps_forest (subject : Subject) (sink : Array Lens) (steps : List Step)
    (hg : steps.countP Step.opensGroup ≤ 2 ^ 32 - 2)
    (hu : steps.countP Step.isUnnamed ≤ 2 ^ 32 - 1) :
    ∃ c triples, (start subject sink).steps steps = some c ∧
      c.lenses.toList = sink.toList ++ triples.flatten ∧
      List.Forall₂ (Triple subject) (steps.filterMap Step.emitted?) triples ∧
      Forest triples c.trail.allocated.toNat := by
  have hr := Trail.room_start hg hu
  refine ⟨(start subject sink).ran steps, Trail.triples subject steps,
    steps_eq_some_iff.mpr ⟨hr, rfl⟩, ?_, Trail.triples_forall₂ subject steps, ?_⟩
  case refine_1 =>
    rw [ran_lenses, List.flatMap_def]
    rfl
  case refine_2 =>
    have ha := (Trail.ran_represents hr).allocated_eq
    rw [ran_trail]
    exact ha ▸ Trail.triples_forest subject hr

theorem ragged_forest :
    ∃ c triples, (start ⟨"a_spec.rb", .probed true false, false⟩ #[]).steps Step.ragged = some c ∧
      c.lenses.toList = triples.flatten ∧ triples.length = 4 ∧ Forest triples 3 := by
  have ⟨c, triples, hs, hl, ht, hf⟩ :=
    steps_forest ⟨"a_spec.rb", .probed true false, false⟩ #[] Step.ragged (by decide) (by decide)
  have ha : ((start ⟨"a_spec.rb", .probed true false, false⟩ #[]).steps Step.ragged).map
      (fun c => c.trail.allocated.toNat) = some 3 := by decide
  rw [hs] at ha
  exact ⟨c, triples, hs, hl, ht.length_eq.symm.trans (by decide), Option.some.inj ha ▸ hf⟩

end Collector

end TestLens
