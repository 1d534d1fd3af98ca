import TestLens.Proofs.Entry
import TestLens.Proofs.Events

universe v

namespace TestLens

structure Site where
  address : Address
  call : Call

namespace Site

def opensGroup (site : Site) : Bool :=
  site.call.opensGroup

def isUnnamed (site : Site) : Bool :=
  site.call.isUnnamed

def emits (site : Site) : Bool :=
  site.call.emits

end Site

namespace Document

def callAt (d : Document) (a : Address) : Option Call :=
  (d.root.at? a).bind d.call?

def sitesAt (d : Document) (addresses : List Address) : List Site :=
  addresses.filterMap fun a => (d.callAt a).map (Site.mk a)

-- The calls of a document, in document order.
def sites (d : Document) : List Site :=
  d.sitesAt d.root.addresses

-- The calls before an address, in document order.
def earlier (d : Document) (a : Address) : List Site :=
  d.sites.takeWhile fun site => site.address ≠ a

def groupAt (d : Document) (a : Address) : GroupId :=
  .after ((d.earlier a).countP Site.opensGroup)

def enclosing? (d : Document) : Address → Option Address
  | [] => none
  | _ :: a => if (d.callAt a).any Call.opensGroup then some a else d.enclosing? a

def nameOf (d : Document) (site : Site) : String :=
  match site.call.argument with
  | some argument => argument.name
  | none =>
    "<unnamed-" ++ toString (1 + (d.earlier site.address).countP Site.isUnnamed) ++ ">"

def entryOf (d : Document) (site : Site) : Entry where
  call := site.call
  name := d.nameOf site
  group := (d.enclosing? site.address).map d.groupAt
  id := if site.opensGroup then some (d.groupAt site.address) else none

def outline (d : Document) : List Entry :=
  (d.sites.filter Site.emits).map d.entryOf

variable {d : Document} {a : Address} {n : Node}

theorem callAt_eq (hn : d.root.at? a = some n) : d.callAt a = d.call? n := by
  rw [callAt, hn]
  rfl

theorem sitesAt_append (d : Document) (as bs : List Address) :
    d.sitesAt (as ++ bs) = d.sitesAt as ++ d.sitesAt bs :=
  List.filterMap_append

theorem sitesAt_node (hn : d.root.at? a = some n) :
    d.sitesAt (n.addressesFrom a) =
      ((d.call? n).map (Site.mk a)).toList ++
        d.sitesAt (Node.addressesFrom.below a 0 n.children) := by
  rw [Node.addressesFrom_eq, ← List.singleton_append, sitesAt_append, ← callAt_eq hn]
  cases hc : d.callAt a <;> simp [sitesAt, hc]

theorem sitesAt_sublist (d : Document) (as : List Address) :
    List.Sublist ((d.sitesAt as).map Site.address) as := by
  induction as
  case nil => exact .slnil
  case cons a as hi =>
    cases hc : d.callAt a
    case none => simpa [sitesAt, hc] using hi.cons a
    case some call => simpa [sitesAt, hc] using hi.cons_cons a

theorem earlier_eq {site : Site} {done rest : List Site} (hs : d.sites = done ++ site :: rest) :
    d.earlier site.address = done := by
  -- A site is found at one place of the list only, so the sites before it are the earlier ones.
  have hn : (d.sites.map Site.address).Nodup :=
    d.root.addresses_nodup.sublist (d.sitesAt_sublist _)
  rw [hs, List.map_append, List.map_cons] at hn
  have hd : ∀ s ∈ done, s.address ≠ site.address := by
    intro s hm he
    have := (List.nodup_append.mp hn).right.right
    exact this _ (List.mem_map_of_mem hm) _ (List.mem_cons_self ..) he
  rw [earlier, hs, List.takeWhile_append_of_pos (by simpa using hd)]
  simp

-- The walk enters the calls in document order.
theorem events_calls (hn : d.root.at? a = some n) :
    (d.events n).filterMap Step.entered? = (d.sitesAt (n.addressesFrom a)).map Site.call := by
  induction a, n, hn using Node.induction_at fun a i ns =>
    (events.eventsAll d ns).filterMap Step.entered? =
      (d.sitesAt (Node.addressesFrom.below a i ns)).map Site.call
  case node a n hn hi =>
    rw [sitesAt_node hn, List.map_append, ← hi]
    cases hc : d.call? n
    case none => simp [events_eq_eventsAll hc]
    case some call => simp [events_of_call hc, Step.entered?]
  case nil => rfl
  case cons a i n ns _ hn hi =>
    rw [events.eventsAll, Node.addressesFrom.below, List.filterMap_append, hn, hi, sitesAt_append,
      List.map_append]

theorem events_countP (p : Call → Bool) {q : Step → Bool}
    (hq : ∀ step, q step = step.entered?.any p) (hn : d.root.at? a = some n) :
    (d.events n).countP q = (d.sitesAt (n.addressesFrom a)).countP fun site => p site.call := by
  have hc : (d.sitesAt (n.addressesFrom a)).countP (fun site => p site.call) =
      ((d.sitesAt (n.addressesFrom a)).map Site.call).countP p :=
    List.countP_map.symm
  rw [hc, ← events_calls hn, List.countP_filterMap]
  congr
  funext step
  rw [hq]
  cases step.entered? <;> rfl

theorem events_groups (hn : d.root.at? a = some n) :
    (d.events n).countP Step.opensGroup = (d.sitesAt (n.addressesFrom a)).countP Site.opensGroup :=
  events_countP Call.opensGroup (fun step => by cases step <;> rfl) hn

theorem events_unnamed (hn : d.root.at? a = some n) :
    (d.events n).countP Step.isUnnamed = (d.sitesAt (n.addressesFrom a)).countP Site.isUnnamed :=
  events_countP Call.isUnnamed (fun step => by cases step <;> rfl) hn

-- Where a trail stands after the calls `done`, in the group at `around`.
structure Reached (d : Document) (t : Trail) (done : List Site) (around : Option Address) :
    Prop where
  nextId : t.nextId.val.toNat = 1 + done.countP Site.opensGroup
  unnamedCount : t.unnamedCount.toNat = done.countP Site.isUnnamed
  current : t.current = around.map d.groupAt

namespace Reached

variable {t : Trail} {site : Site} {done rest : List Site} {around : Option Address}

theorem start (d : Document) : d.Reached .start [] (d.enclosing? []) where
  nextId := rfl
  unnamedCount := rfl
  current := rfl

theorem groupAt_eq (h : d.Reached t done around) (hs : d.sites = done ++ site :: rest) :
    d.groupAt site.address = t.nextId := by
  rw [groupAt, earlier_eq hs, GroupId.eq_after h.nextId]

theorem naming_eq (h : d.Reached t done around) (hs : d.sites = done ++ site :: rest)
    (hf : t.Fits site.call) (he : site.emits) : t.naming site.call = d.nameOf site := by
  rw [Trail.naming, nameOf]
  cases ha : site.call.argument
  case some => rfl
  case none =>
    have hu : site.call.isUnnamed := Bool.and_eq_true_iff.mpr ⟨he, by rw [ha]; rfl⟩
    simp only [Naming.unnamed, toNat_succ (hf.right hu), h.unnamedCount, earlier_eq hs,
      Nat.add_comm]

theorem entry_eq (site : Site) (h : d.Reached t done (d.enclosing? site.address))
    (hs : d.sites = done ++ site :: rest) (hf : t.Fits site.call) :
    ((Step.enter site.call).emitted?.map t.entry).toList =
      ([site].filter Site.emits).map d.entryOf := by
  cases he : site.emits
  case false =>
    have he' : site.call.emits = false := he
    simp [Step.emitted?, he, he']
  case true =>
    have he' : site.call.emits = true := he
    have hentry : t.entry site.call = d.entryOf site := by
      rw [Trail.entry, entryOf, h.naming_eq hs hf he, h.current, h.groupAt_eq hs]
      rfl
    simp [Step.emitted?, he, he', hentry]

theorem entered (site : Site) (h : d.Reached t done (d.enclosing? site.address))
    (hs : d.sites = done ++ site :: rest) (hf : t.Fits site.call)
    (hc : d.callAt site.address = some site.call) (i : Nat) :
    d.Reached (t.entered site.call) (done ++ [site]) (d.enclosing? (i :: site.address)) := by
  constructor
  case nextId =>
    rw [Trail.entered_nextId hf, h.nextId, List.countP_append, List.countP_singleton,
      Site.opensGroup, Nat.add_assoc]
  case unnamedCount =>
    rw [Trail.entered_unnamedCount hf, h.unnamedCount, List.countP_append, List.countP_singleton,
      Site.isUnnamed]
  case current =>
    have hg := h.groupAt_eq hs
    have hi := h.current
    rw [enclosing?, hc, Option.any_some]
    cases ho : site.call.opensGroup
    case false => simpa [Trail.current, Trail.entered, Trail.opening, ho] using hi
    case true => simp [Trail.current, Trail.entered, Trail.opening, ho, hg]

-- Below a node the trail comes back to the group in which it started.
theorem ran (h : d.Reached t done around) (hn : d.root.at? a = some n)
    (hr : t.Room (d.events n)) :
    d.Reached (t.ran (d.events n)) (done ++ d.sitesAt (n.addressesFrom a)) around := by
  have ⟨hg, hu⟩ := Trail.ran_counters hr
  constructor
  case nextId => rw [hg, h.nextId, events_groups hn, List.countP_append, Nat.add_assoc]
  case unnamedCount => rw [hu, h.unnamedCount, events_unnamed hn, List.countP_append]
  case current => rw [Trail.current, (Trail.ran_events d n t).right, ← h.current, Trail.current]

end Reached

theorem entries_events (t : Trail) (done rest : List Site) (hn : d.root.at? a = some n)
    (hs : d.sites = done ++ (d.sitesAt (n.addressesFrom a) ++ rest))
    (hr : t.Room (d.events n)) (h : d.Reached t done (d.enclosing? a)) :
    t.entries (d.events n) =
      ((d.sitesAt (n.addressesFrom a)).filter Site.emits).map d.entryOf := by
  -- The entries of a part of the walk are those of the outline, for any calls before and after it.
  induction a, n, hn using Node.induction_at (fun a i ns => ∀ (t : Trail) (done rest : List Site),
    d.sites = done ++ (d.sitesAt (Node.addressesFrom.below a i ns) ++ rest) →
    t.Room (events.eventsAll d ns) → d.Reached t done (d.enclosing? (i :: a)) →
    t.entries (events.eventsAll d ns) =
      ((d.sitesAt (Node.addressesFrom.below a i ns)).filter Site.emits).map d.entryOf)
    generalizing t done rest
  case node a n hn hi =>
    have hc := callAt_eq hn
    rw [sitesAt_node hn] at hs ⊢
    cases hcall : d.call? n
    case none =>
      rw [hcall] at hc hs
      rw [events_eq_eventsAll hcall] at hr ⊢
      have he : d.enclosing? (0 :: a) = d.enclosing? a := by simp [enclosing?, hc]
      exact hi t done rest hs hr (he ▸ h)
    case some call =>
      rw [hcall] at hc hs
      rw [events_of_call hcall] at hr ⊢
      have ⟨hf, hr⟩ := Trail.room_enter_iff.mp hr
      have hi := hi (t.entered call) (done ++ [⟨a, call⟩]) rest (by simpa using hs) hr.left
        (h.entered ⟨a, call⟩ hs hf hc 0)
      have he := h.entry_eq ⟨a, call⟩ hs hf
      have hl : (t.entered call).entries (events.eventsAll d n.children ++ [.leave call]) =
          (t.entered call).entries (events.eventsAll d n.children) := by
        simp [Trail.entries_append, Trail.entries, Step.emitted?]
      rw [Trail.entries, Trail.took, hl, hi, he, ← List.map_append, ← List.filter_append]
      rfl
  case nil => rfl
  case cons a i n ns hn hm hi t done rest hs hr h =>
    rw [events.eventsAll] at hr ⊢
    rw [Node.addressesFrom.below, sitesAt_append] at hs ⊢
    have hf := hm t done _ (by simpa using hs) hr.left h
    have hi := hi (t.ran (d.events n)) _ rest (by simpa using hs) hr.right (h.ran hn hr.left)
    rw [Trail.entries_append, hf, hi, List.filter_append, List.map_append]

theorem entries_outline (hr : Trail.start.Room (d.events d.root)) :
    Trail.start.entries (d.events d.root) = d.outline :=
  entries_events .start [] [] rfl (by simp [sites, Node.addresses]) hr (.start d)

theorem room_events (hg : d.sites.countP Site.opensGroup ≤ 2 ^ 32 - 2)
    (hu : d.sites.countP Site.isUnnamed ≤ 2 ^ 32 - 1) : Trail.start.Room (d.events d.root) := by
  have hn : d.root.at? [] = some d.root := rfl
  exact Trail.room_start (events_groups hn ▸ hg) (events_unnamed hn ▸ hu)

theorem room_events_iff :
    Trail.start.Room (d.events d.root) ↔
      d.sites.countP Site.opensGroup ≤ 2 ^ 32 - 2 ∧ d.sites.countP Site.isUnnamed ≤ 2 ^ 32 - 1 := by
  constructor
  case mp =>
    intro ⟨hg, hu⟩
    have hi : Trail.start.nextId.val.toNat = 1 := rfl
    have hc : Trail.start.unnamedCount.toNat = 0 := rfl
    have hn : d.root.at? [] = some d.root := rfl
    rw [hi, events_groups hn, UInt32.size] at hg
    rw [hc, events_unnamed hn, UInt32.size] at hu
    exact ⟨by rw [sites, Node.addresses]; omega, by rw [sites, Node.addresses]; omega⟩
  case mpr => exact fun ⟨hg, hu⟩ => room_events hg hu

theorem collect_eq_some_iff {subject : Subject} {sink : Array Lens} {c : Collector} :
    d.collect subject sink = some c ↔
      Trail.start.Room (d.events d.root) ∧
        c = (Collector.start subject sink).ran (d.events d.root) := by
  rw [collect_eq_steps]
  exact Collector.steps_eq_some_iff

-- A document can be collected exactly when it is not too large for the counters.
theorem collect_isSome_iff {subject : Subject} {sink : Array Lens} :
    (d.collect subject sink).isSome ↔
      d.sites.countP Site.opensGroup ≤ 2 ^ 32 - 2 ∧ d.sites.countP Site.isUnnamed ≤ 2 ^ 32 - 1 := by
  rw [← room_events_iff, Option.isSome_iff_exists]
  simp only [collect_eq_some_iff, exists_and_left, exists_eq, and_true]

def triples (d : Document) (subject : Subject) : List (List Lens) :=
  (d.sites.filter Site.emits).map fun site => (d.entryOf site).lenses subject

theorem collect_lenses {subject : Subject} {sink : Array Lens} {c : Collector}
    (h : d.collect subject sink = some c) :
    c.lenses.toList = sink.toList ++ (d.triples subject).flatten := by
  obtain ⟨hr, rfl⟩ := collect_eq_some_iff.mp h
  have ht : (d.triples subject).flatten = d.outline.flatMap (Entry.lenses subject) := by
    rw [triples, outline, List.flatMap_map, List.flatMap_def]
  rw [Collector.ran_lenses, ht, ← entries_outline hr]
  rfl

theorem mem_sites_iff {site : Site} :
    site ∈ d.sites ↔ ∃ n, d.root.at? site.address = some n ∧ d.call? n = some site.call := by
  constructor
  case mp =>
    intro h
    have ⟨a, _, hs⟩ := List.mem_filterMap.mp h
    have ⟨call, hc, hs⟩ := Option.map_eq_some_iff.mp hs
    exact hs ▸ Option.bind_eq_some_iff.mp hc
  case mpr =>
    intro ⟨n, hn, hc⟩
    refine List.mem_filterMap.mpr ⟨site.address, Node.mem_addresses_of_at? hn, ?_⟩
    rw [callAt_eq hn, hc]
    rfl

-- Single examples get lenses whatever they are called on. A group gets them for its block, unless it
-- is called on something else than the framework.
theorem emits_of_call? {call : Call} (h : d.call? n = some call) :
    call.emits ↔ call.method ∈ ["example", "it", "specify"] ∨
      call.method ∈ ["context", "describe"] ∧ call.block ∧
        (call.receiver = none ∨ call.receiver = some "RSpec") := by
  have hr := role_of_call? h
  rw [Role.ofMethod] at hr
  split at hr
  case isTrue hm => exact iff_of_true (by simp [Call.emits, hr]) (.inl hm)
  case isFalse hm =>
    have hm : call.method ∉ ["example", "it", "specify"] := hm
    split at hr
    case isTrue hg =>
      have hg : call.method ∈ ["context", "describe"] := hg
      have hf : "RSpec" = Call.framework := rfl
      simp [Call.emits, Call.opensGroup, hr, hm, hg, hf]
    case isFalse hg =>
      have hg : call.method ∉ ["context", "describe"] := hg
      simp [Call.emits, Call.opensGroup, hr, hm, hg]

-- Nothing on the right-hand side speaks of a walk: numbers are ranks among the calls of the tree, and
-- groups are found by going up.
theorem walkBy_collects_outline {ι : Type v} [DecidableEq ι] (key : Address → ι) (d : Document)
    (subject : Subject) (sink : Array Lens) (hk : (d.root.addresses.map key).Nodup)
    (hg : d.sites.countP Site.opensGroup ≤ 2 ^ 32 - 2)
    (hu : d.sites.countP Site.isUnnamed ≤ 2 ^ 32 - 1) :
    ∃ c, d.walkBy key .collector d.root (some (.start subject sink)) = (some c, .finished) ∧
      d.collect subject sink = some c ∧
      c.lenses.toList = sink.toList ++ d.outline.flatMap (Entry.lenses subject) ∧
      (∀ e ∈ d.outline, e.Shows subject (e.lenses subject)) ∧
      ∀ site ∈ d.sites, site.emits ↔ site.call.method ∈ ["example", "it", "specify"] ∨
        site.call.method ∈ ["context", "describe"] ∧ site.call.block ∧
          (site.call.receiver = none ∨ site.call.receiver = some "RSpec") := by
  have hr := room_events hg hu
  have hs : (Collector.start subject sink).steps (d.events d.root) =
      some ((Collector.start subject sink).ran (d.events d.root)) :=
    Collector.steps_eq_some_iff.mpr ⟨hr, rfl⟩
  refine ⟨(Collector.start subject sink).ran (d.events d.root), ?_, ?_, ?_, ?_, ?_⟩
  case refine_1 => rw [walkBy_collector d _ hk, hs, Collector.ending]
  case refine_2 => rw [collect_eq_steps, hs]
  case refine_3 =>
    rw [Collector.ran_lenses, ← entries_outline hr]
    rfl
  case refine_4 => exact fun e _ => e.lenses_shows subject
  case refine_5 =>
    intro site hs
    obtain ⟨_, _, hc⟩ := mem_sites_iff.mp hs
    exact emits_of_call? hc

-- A group without a block, given an example, and a group with one inside.
def blockless : Document where
  text := "describe(it()) describe \x7b it() \x7d"
  hasErrors := false
  root := ⟨.other "program", 0, 32, true, false, none,
    [⟨.call, 0, 14, true, false, none,
      [⟨.identifier, 0, 8, true, false, some .method, []⟩,
       ⟨.other "argument_list", 8, 14, true, false, some .arguments,
        [⟨.call, 9, 13, true, false, none,
          [⟨.identifier, 9, 11, true, false, some .method, []⟩]⟩]⟩]⟩,
     ⟨.call, 15, 32, true, false, none,
      [⟨.identifier, 15, 23, true, false, some .method, []⟩,
       ⟨.other "block", 24, 32, true, false, some .block,
        [⟨.call, 26, 30, true, false, none,
          [⟨.identifier, 26, 28, true, false, some .method, []⟩]⟩]⟩]⟩]⟩

def shown (lenses : List Lens) : List (String × Option GroupId × Option GroupId) :=
  (lenses.filter fun lens => lens.data.kind = .test).map fun lens =>
    (lens.arguments.name, lens.data.group, lens.data.id)

theorem nested_collects :
    (∃ c, nested.walkBy number .collector nested.root
        (some (.start ⟨"a_spec.rb", .probed true false, false⟩ #[])) = (some c, .finished) ∧
      shown c.lenses.toList =
        [("<unnamed-1>", none, some ⟨1⟩), ("<unnamed-2>", some ⟨1⟩, none),
         ("<unnamed-3>", some ⟨1⟩, some ⟨2⟩), ("<unnamed-4>", some ⟨2⟩, none)]) ∧
      ∃ c, blockless.walkBy number .collector blockless.root
          (some (.start ⟨"a_spec.rb", .probed true false, false⟩ #[])) = (some c, .finished) ∧
        shown c.lenses.toList =
          [("<unnamed-1>", none, none), ("<unnamed-2>", none, some ⟨1⟩),
           ("<unnamed-3>", some ⟨1⟩, none)] := by
  constructor
  case left =>
    obtain ⟨c, hw, _, hl, _⟩ := walkBy_collects_outline number nested
      ⟨"a_spec.rb", .probed true false, false⟩ #[] (by decide) (by decide) (by decide)
    exact ⟨c, hw, by rw [hl]; decide⟩
  case right =>
    obtain ⟨c, hw, _, hl, _⟩ := walkBy_collects_outline number blockless
      ⟨"a_spec.rb", .probed true false, false⟩ #[] (by decide) (by decide) (by decide)
    exact ⟨c, hw, by rw [hl]; decide⟩

end Document

end TestLens
