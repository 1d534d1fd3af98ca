import TestLens.Proofs.Forest
import TestLens.Proofs.Geometry
import TestLens.Proofs.Legibility

namespace TestLens

section Target

variable {path path' : String} {line line' : UInt32}

-- Read from its end, a target is the digits of the line up to a colon. What stands behind that colon
-- is the path, with all the colons and digits that it may have.
theorem target_injective (h : target path line = target path' line') :
    path = path' ∧ line = line' := by
  have digits (n : Nat) : ∀ c ∈ (Nat.toDigits 10 n).reverse, c.isDigit :=
    fun c hc => Json.isDigit_of_mem (List.mem_reverse.mp hc)
  have colon (cs : List Char) : ∀ c ∈ (':' :: cs).head?, c.isDigit = false := by simp
  have hr : (Nat.toDigits 10 line.toNat).reverse ++ ':' :: path.toList.reverse =
      (Nat.toDigits 10 line'.toNat).reverse ++ ':' :: path'.toList.reverse := by
    simpa [target, Nat.toString_eq_repr] using congrArg (fun text => text.toList.reverse) h
  have ⟨hl, hp⟩ := Text.append_inj_of_all (digits _) (digits _) (colon _) (colon _) hr
  have hl := Json.toDigits_injective (List.reverse_inj.mp hl)
  have hp := List.reverse_inj.mp (List.cons.inj hp).right
  exact ⟨String.toList_inj.mp hp, UInt32.toNat_inj.mp hl⟩

-- A path may look like the target of another path.
example : target "a:1" 2 = "a:1:2" ∧ target "a" 12 = "a:12" := by decide

theorem target_eq_iff : target path line = target path' line' ↔ path = path' ∧ line = line' := by
  constructor
  case mp => exact target_injective
  case mpr =>
    intro ⟨hp, hl⟩
    rw [hp, hl]

namespace Commands

variable {base : BaseCommand}

theorem terminal_eq_iff :
    (of base path line).terminal = (of base path' line').terminal ↔
      path = path' ∧ line = line' := by
  rw [← target_eq_iff]
  exact String.append_right_inj _

theorem runner_eq_iff :
    (of base path line).runner = (of base path' line').runner ↔ path = path' ∧ line = line' := by
  rw [← target_eq_iff]
  exact String.append_right_inj _

end Commands

end Target

def LensKind.commandAmong? (lenses : List Lens) (kind : LensKind) : Option String :=
  (lenses.find? fun lens => lens.data.kind = kind).map fun lens => lens.arguments.command

-- Calls with their lenses. Whichever kind is taken, the commands of two calls are the same exactly
-- when the calls start on the same line.
structure Targeted (subject : Subject) (calls : List Call) (triples : List (List Lens)) : Prop where
  alike : List.Forall₂ (Triple subject) calls triples
  command_eq_iff : ∀ x ∈ calls.zip triples, ∀ y ∈ calls.zip triples, ∀ kind : LensKind,
    kind.commandAmong? x.2 = kind.commandAmong? y.2 ↔ x.1.line = y.1.line

namespace Entry

theorem commandAmong?_lenses (subject : Subject) (e : Entry) (kind : LensKind) :
    kind.commandAmong? (e.lenses subject) = some (kind.commandText (subject.commands e.call)) := by
  cases kind <;> rfl

theorem commandAmong?_eq_iff (subject : Subject) (e e' : Entry) (kind : LensKind) :
    kind.commandAmong? (e.lenses subject) = kind.commandAmong? (e'.lenses subject) ↔
      e.call.line = e'.call.line := by
  have hp (l m : UInt32) : subject.path = subject.path ∧ l = m ↔ l = m := and_iff_right rfl
  rw [commandAmong?_lenses, commandAmong?_lenses, Option.some_inj]
  cases kind
  case test => exact Commands.runner_eq_iff.trans (hp _ _)
  case testInTerminal => exact Commands.terminal_eq_iff.trans (hp _ _)
  case debug => exact Commands.runner_eq_iff.trans (hp _ _)

theorem targeted (subject : Subject) {es : List Entry}
    (h : ∀ e ∈ es, e.id.isSome = e.call.opensGroup) :
    Targeted subject (es.map call) (es.map (lenses subject)) where
  alike := by
    apply List.forall₂_map_left_iff.mpr
    apply List.forall₂_map_right_iff.mpr
    exact List.forall₂_same.mpr fun e he => (e.lenses_shows subject).triple (h e he)
  command_eq_iff := by
    rw [List.zip_map']
    intro x hx y hy kind
    have ⟨e, _, hx⟩ := List.mem_map.mp hx
    have ⟨e', _, hy⟩ := List.mem_map.mp hy
    subst hx
    subst hy
    exact commandAmong?_eq_iff subject e e' kind

end Entry

namespace Collector

theorem steps_targeted {subject : Subject} {sink : Array Lens} {steps : List Step} {c : Collector}
    (h : (start subject sink).steps steps = some c) :
    ∃ triples, c.lenses.toList = sink.toList ++ triples.flatten ∧
      Targeted subject (steps.filterMap Step.emitted?) triples := by
  have ⟨_, hc⟩ := steps_eq_some_iff.mp h
  refine ⟨Trail.triples subject steps, ?_, ?_⟩
  case refine_1 =>
    rw [hc, ran_lenses, List.flatMap_def]
    rfl
  case refine_2 =>
    rw [← Trail.entries_calls .start]
    exact Entry.targeted subject fun e he => Trail.isSome_id_of_mem_entries he

end Collector

namespace Document

variable {d : Document} {subject : Subject} {sink : Array Lens} {c : Collector}

def row? (d : Document) (site : Site) : Option Nat :=
  (d.root.at? site.address).map fun n => (Text.locate d.text.toList n.start).1

theorem row?_eq_some {site : Site} (hd : ∀ n ∈ d.root.preorder, d.Tellable n.start)
    (hs : site ∈ d.sites) : ∃ row, d.row? site = some row ∧ site.call.line.toNat = row + 1 := by
  have ⟨n, hn, hc⟩ := mem_sites_iff.mp hs
  refine ⟨(Text.locate d.text.toList n.start).1, ?_, ?_⟩
  case refine_1 => simp [row?, hn]
  case refine_2 => exact line_of_call? hc (hd n (Node.mem_preorder_of_at? hn))

theorem row?_eq_iff {site site' : Site} (hd : ∀ n ∈ d.root.preorder, d.Tellable n.start)
    (hs : site ∈ d.sites) (hs' : site' ∈ d.sites) :
    site.call.line = site'.call.line ↔ d.row? site = d.row? site' := by
  have ⟨row, hr, hl⟩ := row?_eq_some hd hs
  have ⟨row', hr', hl'⟩ := row?_eq_some hd hs'
  rw [hr, hr', Option.some_inj, ← UInt32.toNat_inj]
  omega

theorem isSome_id_of_mem_outline {e : Entry} (h : e ∈ d.outline) :
    e.id.isSome = e.call.opensGroup := by
  have ⟨site, _, he⟩ := List.mem_map.mp h
  subst he
  cases ho : site.call.opensGroup <;> simp [entryOf, Site.opensGroup, ho]

theorem triples_targeted (d : Document) (subject : Subject) :
    Targeted subject ((d.sites.filter Site.emits).map Site.call) (d.triples subject) := by
  have h := Entry.targeted subject (fun e he => isSome_id_of_mem_outline (d := d) he)
  rw [outline, List.map_map, List.map_map] at h
  exact h

theorem triples_command_eq_iff (hd : ∀ n ∈ d.root.preorder, d.Tellable n.start)
    {x y : Site × List Lens} (hx : x ∈ (d.sites.filter Site.emits).zip (d.triples subject))
    (hy : y ∈ (d.sites.filter Site.emits).zip (d.triples subject)) (kind : LensKind) :
    kind.commandAmong? x.2 = kind.commandAmong? y.2 ↔ d.row? x.1 = d.row? y.1 := by
  rw [triples, ← List.map_id (d.sites.filter Site.emits), List.map_map, List.zip_map'] at hx hy
  obtain ⟨site, hs, rfl⟩ := List.mem_map.mp hx
  obtain ⟨site', hs', rfl⟩ := List.mem_map.mp hy
  have hl := row?_eq_iff hd (List.mem_of_mem_filter hs) (List.mem_of_mem_filter hs')
  exact (Entry.commandAmong?_eq_iff subject (d.entryOf site) (d.entryOf site') kind).trans hl

end Document

-- The last part says of a document what the second one says of any steps. There the line of a call is
-- the row of the text in which it starts, as long as words can tell it.
theorem commands_identify :
    (∀ (base : BaseCommand) (path path' : String) (line line' : UInt32),
      ((Commands.of base path line).terminal = (Commands.of base path' line').terminal ↔
          path = path' ∧ line = line') ∧
        ((Commands.of base path line).runner = (Commands.of base path' line').runner ↔
          path = path' ∧ line = line')) ∧
      (∀ (subject : Subject) (sink : Array Lens) (steps : List Step) (c : Collector),
        (Collector.start subject sink).steps steps = some c →
          ∃ triples, c.lenses.toList = sink.toList ++ triples.flatten ∧
            Targeted subject (steps.filterMap Step.emitted?) triples) ∧
      ∀ (d : Document) (subject : Subject) (sink : Array Lens) (c : Collector),
        d.collect subject sink = some c →
          ∃ triples, c.lenses.toList = sink.toList ++ triples.flatten ∧
            Targeted subject ((d.sites.filter Site.emits).map Site.call) triples ∧
            ((∀ n ∈ d.root.preorder, d.Tellable n.start) →
              ∀ x ∈ (d.sites.filter Site.emits).zip triples,
                ∀ y ∈ (d.sites.filter Site.emits).zip triples, ∀ kind : LensKind,
                  kind.commandAmong? x.2 = kind.commandAmong? y.2 ↔ d.row? x.1 = d.row? y.1) := by
  refine ⟨?_, ?_, ?_⟩
  case refine_1 =>
    intro base path path' line line'
    exact ⟨Commands.terminal_eq_iff, Commands.runner_eq_iff⟩
  case refine_2 => exact fun subject sink steps c h => Collector.steps_targeted h
  case refine_3 =>
    intro d subject sink c h
    refine ⟨d.triples subject, Document.collect_lenses h, d.triples_targeted subject, ?_⟩
    exact fun hd x hx y hy kind => Document.triples_command_eq_iff hd hx hy kind

namespace Document

-- Two examples on one line, and a third one on the next.
def crowded : Document where
  text := "it(); it()\nit()"
  hasErrors := false
  root := ⟨.other "program", 0, 15, true, false, none, [bare 0, bare 6, bare 11]⟩
where
  bare (start : Nat) : Node :=
    ⟨.call, start, start + 4, true, false, none,
      [⟨.identifier, start, start + 2, true, false, some .method, []⟩]⟩

theorem crowded_identified :
    ∃ c triples, crowded.collect ⟨"a:1 b", .overridden "run", false⟩ #[] = some c ∧
      c.lenses.toList = triples.flatten ∧
      (crowded.sites.filter Site.emits).map crowded.row? = [some 0, some 0, some 1] ∧
      ∀ x ∈ (crowded.sites.filter Site.emits).zip triples,
        ∀ y ∈ (crowded.sites.filter Site.emits).zip triples, ∀ kind : LensKind,
          kind.commandAmong? x.2 = kind.commandAmong? y.2 ↔
            crowded.row? x.1 = crowded.row? y.1 := by
  have ⟨_, _, h⟩ := commands_identify
  have hs : (crowded.collect ⟨"a:1 b", .overridden "run", false⟩ #[]).isSome :=
    collect_isSome_iff.mpr (by decide)
  have ⟨c, hc⟩ := Option.isSome_iff_exists.mp hs
  have ⟨triples, hl, _, ht⟩ := h crowded ⟨"a:1 b", .overridden "run", false⟩ #[] c hc
  exact ⟨c, triples, hc, hl, by decide, ht (by decide)⟩

end Document

end TestLens
