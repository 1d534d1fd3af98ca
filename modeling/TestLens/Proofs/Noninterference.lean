import Mathlib.Data.List.Forall2
import TestLens.Proofs.Extents
import TestLens.Proofs.Outline

namespace TestLens

-- A lens without the one text that depends on the base command.
def Lens.masked (lens : Lens) : Lens :=
  if lens.data.kind = .testInTerminal then
    { lens with arguments := { lens.arguments with command := "" } }
  else lens

-- The commands of a call's lenses, each with the kind of its lens. All of them aim at the line on
-- which the call starts, counted by the newlines before it.
structure Site.Aimed (d : Document) (path base : String) (site : Site) (triple : List Lens) :
    Prop where
  line : ∃ n, d.root.at? site.address = some n ∧
    site.call.line = .ofNat (((Text.bytes d.text.toList).take n.start).count 10 + 1) ∧
    (n.start < 2 ^ 32 - 1 →
      site.call.line.toNat = ((Text.bytes d.text.toList).take n.start).count 10 + 1)
  commands : triple.map (fun lens => (lens.data.kind, lens.arguments.command)) =
    [(.test, "bundle exec rspec " ++ (path ++ ":" ++ toString site.call.line.toNat)),
     (.testInTerminal, base ++ " " ++ (path ++ ":" ++ toString site.call.line.toNat)),
     (.debug, "bundle exec rspec " ++ (path ++ ":" ++ toString site.call.line.toNat))]

namespace Entry

theorem masked_lenses (path : String) (base base' : BaseCommand) (debug debug' : Bool) (e : Entry) :
    (e.lenses ⟨path, base, debug⟩).map Lens.masked =
      (e.lenses ⟨path, base', debug'⟩).map Lens.masked :=
  rfl

theorem lenses_commands (subject : Subject) (e : Entry) :
    (e.lenses subject).map (fun lens => (lens.data.kind, lens.arguments.command)) =
      [(.test, "bundle exec rspec " ++ target subject.path e.call.line),
       (.testInTerminal, subject.base.command ++ " " ++ target subject.path e.call.line),
       (.debug, "bundle exec rspec " ++ target subject.path e.call.line)] :=
  rfl

end Entry

namespace Document

variable {d : Document} {path : String}

theorem masked_triples (base base' : BaseCommand) (debug debug' : Bool) :
    (d.triples ⟨path, base, debug⟩).flatten.map Lens.masked =
      (d.triples ⟨path, base', debug'⟩).flatten.map Lens.masked := by
  rw [triples, triples, List.map_flatten, List.map_flatten, List.map_map, List.map_map]
  refine congrArg List.flatten (List.map_congr_left fun site _ => ?_)
  exact Entry.masked_lenses path base base' debug debug' (d.entryOf site)

theorem triples_aimed (d : Document) (subject : Subject) :
    List.Forall₂ (Site.Aimed d subject.path subject.base.command) (d.sites.filter Site.emits)
      (d.triples subject) := by
  rw [triples, List.forall₂_map_right_iff, List.forall₂_same]
  intro site hs
  obtain ⟨n, hn, hc⟩ := mem_sites_iff.mp (List.mem_of_mem_filter hs)
  refine ⟨⟨n, hn, ?_, ?_⟩, Entry.lenses_commands subject (d.entryOf site)⟩
  case refine_1 => rw [Call.line, extent_of_call? hc, extent, Text.locate_row]
  case refine_2 =>
    intro h
    rw [line_of_call? hc (tellable_of_lt h), Text.locate_row]

-- The first line takes more bytes than it has characters.
example :
    let it := ⟨.identifier, 4, 6, true, false, some .method, []⟩
    let d : Document := { text := "#é\nit()", hasErrors := false,
                          root := ⟨.call, 4, 8, true, false, none, [it]⟩ }
    (d.triples ⟨"a.rb", .overridden "run", false⟩).flatten.map (fun lens => lens.arguments.command) =
      ["bundle exec rspec a.rb:2", "run a.rb:2", "bundle exec rspec a.rb:2"] := by
  decide

-- Both runs give a result or none does, and that depends on the document alone.
theorem collect_noninterference (d : Document) (path : String) (base base' : BaseCommand)
    (debug debug' : Bool) (sink sink' : Array Lens) :
    ((d.collect ⟨path, base, debug⟩ sink).isSome ↔
        d.sites.countP Site.opensGroup ≤ 2 ^ 32 - 2 ∧
          d.sites.countP Site.isUnnamed ≤ 2 ^ 32 - 1) ∧
      Option.Rel
        (fun c c' => ∃ triples triples',
          c.lenses.toList = sink.toList ++ triples.flatten ∧
          c'.lenses.toList = sink'.toList ++ triples'.flatten ∧
          triples.flatten.map Lens.masked = triples'.flatten.map Lens.masked ∧
          List.Forall₂ (Site.Aimed d path base.command) (d.sites.filter Site.emits) triples ∧
          List.Forall₂ (Site.Aimed d path base'.command) (d.sites.filter Site.emits) triples')
        (d.collect ⟨path, base, debug⟩ sink) (d.collect ⟨path, base', debug'⟩ sink') := by
  refine ⟨collect_isSome_iff, ?_⟩
  have hsome : (d.collect ⟨path, base, debug⟩ sink).isSome ↔
      (d.collect ⟨path, base', debug'⟩ sink').isSome :=
    collect_isSome_iff.trans collect_isSome_iff.symm
  cases hc : d.collect ⟨path, base, debug⟩ sink
  case none =>
    rw [hc] at hsome
    rw [Option.not_isSome_iff_eq_none.mp (hsome.not.mp nofun)]
    exact .none
  case some c =>
    rw [hc] at hsome
    have ⟨c', hc'⟩ := Option.isSome_iff_exists.mp (hsome.mp rfl)
    rw [hc']
    exact .some ⟨d.triples ⟨path, base, debug⟩, d.triples ⟨path, base', debug'⟩, collect_lenses hc,
      collect_lenses hc', masked_triples base base' debug debug',
      triples_aimed d ⟨path, base, debug⟩, triples_aimed d ⟨path, base', debug'⟩⟩

end Document

end TestLens
