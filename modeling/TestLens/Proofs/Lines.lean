import TestLens.Proofs.Listing

namespace TestLens

def newlines (text : String) : Nat :=
  text.toList.count '\n'

theorem newlines_append (s t : String) : newlines (s ++ t) = newlines s + newlines t := by
  rw [newlines, String.toList_append, List.count_append, newlines, newlines]

theorem newlines_toString (n : Nat) : newlines (toString n) = 0 := by
  rw [newlines, List.count_eq_zero, Nat.toString_eq_repr, Nat.toList_repr]
  intro h
  have := Nat.isDigit_of_mem_toDigits (by decide) (by decide) h
  contradiction

theorem newlines_intercalate {texts : List String} (h : texts ≠ []) :
    newlines ("\n".intercalate texts) + 1 = texts.length + (texts.map newlines).sum := by
  induction texts
  case nil => contradiction
  case cons t ts hi =>
    by_cases hn : ts = []
    case pos => simp [hn, Nat.add_comm]
    case neg =>
      have hb : newlines "\n" = 1 := rfl
      have hi := hi hn
      rw [String.intercalate_cons_of_ne_nil hn, newlines_append, newlines_append, hb, List.map_cons,
        List.sum_cons, List.length_cons]
      omega

namespace Entry

theorem newlines_label (e : Entry) : newlines e.label = 0 := by
  unfold label
  split
  case h_1 =>
    rw [newlines_append, newlines_toString]
    rfl
  case h_2 => rfl

theorem newlines_parent (e : Entry) : newlines e.parent = 0 := by
  unfold parent
  split
  case h_1 =>
    rw [newlines_append, newlines_append, newlines_toString]
    rfl
  case h_2 => rfl

-- All line breaks in what is listed for a call are those of its name.
theorem newlines_listed {path : String} (hp : newlines path = 0) (e : Entry) :
    newlines (e.listed path) = newlines e.name := by
  have hc : newlines ":" = 0 := rfl
  have hs : newlines "  " = 0 := rfl
  simp only [listed, newlines_append, hp, hc, hs, newlines_toString, newlines_label,
    newlines_parent, Nat.add_zero, Nat.zero_add]

end Entry

namespace Sheet

theorem newlines_totals (sheets : List Sheet) : newlines (totals sheets) = 0 := by
  have hl : newlines " lenses in " = 0 := rfl
  have hf : newlines " file(s)" = 0 := rfl
  simp only [totals, newlines_append, newlines_toString, hl, hf]

theorem newlines_lines {sheets : List Sheet} (hp : ∀ s ∈ sheets, newlines s.path = 0) :
    (sheets.flatMap lines).map newlines =
      (sheets.flatMap entries).map fun e => newlines e.name := by
  rw [List.map_flatMap, List.map_flatMap]
  apply List.flatMap_congr
  intro s hs
  rw [lines, List.map_map]
  exact List.map_congr_left fun e _ => e.newlines_listed (hp s hs)

-- Every entry ends a line, and its name may break it further.
theorem newlines_listing {sheets : List Sheet} (hp : ∀ s ∈ sheets, newlines s.path = 0) :
    newlines ("\n".intercalate (sheets.flatMap lines ++ [totals sheets])) =
      (sheets.flatMap entries).length +
        ((sheets.flatMap entries).map fun e => newlines e.name).sum := by
  have hi := newlines_intercalate (List.append_ne_nil_of_right_ne_nil (sheets.flatMap lines)
    (List.cons_ne_nil (totals sheets) []))
  have hl : (sheets.flatMap lines).length = (sheets.flatMap entries).length := by
    simpa using congrArg List.length (newlines_lines hp)
  simp only [List.map_append, List.sum_append, newlines_lines hp, List.length_append, hl,
    List.map_cons, List.map_nil, List.sum_cons, List.sum_nil, newlines_totals, List.length_cons,
    List.length_nil] at hi
  omega

-- Without a line break in a name, the lines can be told apart again.
theorem splitOn_listing {sheets : List Sheet} (hp : ∀ s ∈ sheets, newlines s.path = 0)
    (hn : ∀ e ∈ sheets.flatMap entries, newlines e.name = 0) :
    ("\n".intercalate (sheets.flatMap lines ++ [totals sheets])).toList.splitOn '\n' =
      (sheets.flatMap lines ++ [totals sheets]).map String.toList := by
  have hl : ∀ line ∈ sheets.flatMap lines ++ [totals sheets], newlines line = 0 := by
    refine List.forall_mem_append.mpr ⟨?_, by simpa using newlines_totals sheets⟩
    intro line hm
    obtain ⟨s, hs, hm⟩ := List.mem_flatMap.mp hm
    obtain ⟨e, he, rfl⟩ := List.mem_map.mp hm
    rw [e.newlines_listed (hp s hs)]
    exact hn e (List.mem_flatMap.mpr ⟨s, hs, he⟩)
  rw [String.toList_intercalate]
  apply List.splitOn_intercalate
  case hx => exact List.forall_mem_map.mpr fun line hm => List.count_eq_zero.mp (hl line hm)
  case hls => simp

end Sheet

-- The line breaks in the name that its first argument gives a call.
def Call.breaks (call : Call) : Nat :=
  match call.argument with
  | some argument => newlines argument.name
  | none => 0

namespace Document

theorem newlines_nameOf (d : Document) (site : Site) :
    newlines (d.nameOf site) = site.call.breaks := by
  rw [nameOf, Call.breaks]
  cases site.call.argument
  case some => rfl
  case none =>
    rw [newlines_append, newlines_append, newlines_toString]
    rfl

end Document

structure Source where
  document : Document
  subject : Subject

namespace Source

def report? (s : Source) : Option FileReport :=
  (s.document.collect s.subject #[]).map fun c => ⟨s.subject.path, c.lenses.toList⟩

def calls (s : Source) : List Call :=
  (s.document.sites.filter Site.emits).map Site.call

def sheet (s : Source) : Sheet where
  path := s.subject.path
  subject := s.subject
  entries := s.document.outline

theorem report?_eq_some {s : Source} (hr : Trail.start.Room (s.document.events s.document.root)) :
    s.report? = some s.sheet.report := by
  have hc : s.document.collect s.subject #[] = some _ :=
    Document.collect_eq_some_iff.mpr ⟨hr, rfl⟩
  rw [report?, hc, Option.map_some, Collector.ran_lenses, Sheet.report, sheet,
    ← Document.entries_outline hr]
  rfl

theorem entries_breaks (s : Source) :
    (s.sheet.entries.map fun e => newlines e.name) = s.calls.map Call.breaks := by
  rw [sheet, Document.outline, calls, List.map_map, List.map_map]
  exact List.map_congr_left fun site _ => s.document.newlines_nameOf site

theorem allEntries_breaks (sources : List Source) :
    (((sources.map sheet).flatMap Sheet.entries).map fun e => newlines e.name) =
      (sources.flatMap calls).map Call.breaks := by
  rw [List.flatMap_map, List.map_flatMap, List.map_flatMap]
  exact congrArg (sources.flatMap ·) (funext entries_breaks)

-- The text has a line for each call exactly when no call is named by an argument with a line break
-- in it. Every such line break adds one more line.
theorem listing_newlines (sources : List Source)
    (hp : ∀ s ∈ sources, '\n' ∉ s.subject.path.toList)
    (hg : ∀ s ∈ sources, s.document.sites.countP Site.opensGroup ≤ 2 ^ 32 - 2)
    (hu : ∀ s ∈ sources, s.document.sites.countP Site.isUnnamed ≤ 2 ^ 32 - 1) :
    ∃ files text, sources.mapM report? = some files ∧ (LensReport.ok files).listing = .ok text ∧
      newlines text = (sources.flatMap calls).length + ((sources.flatMap calls).map Call.breaks).sum ∧
      (newlines text = (sources.flatMap calls).length ↔
        ∀ call ∈ sources.flatMap calls, call.breaks = 0) ∧
      ((∀ call ∈ sources.flatMap calls, call.breaks = 0) →
        text.toList.splitOn '\n' =
          (((sources.map sheet).flatMap Sheet.lines) ++ [Sheet.totals (sources.map sheet)]).map
            String.toList) := by
  have hp : ∀ s ∈ sources.map sheet, newlines s.path = 0 :=
    List.forall_mem_map.mpr fun s hs => List.count_eq_zero.mpr (hp s hs)
  have hb := allEntries_breaks sources
  have hl : ((sources.map sheet).flatMap Sheet.entries).length = (sources.flatMap calls).length := by
    simpa using congrArg List.length hb
  have hn := Sheet.newlines_listing hp
  rw [hb, hl] at hn
  refine ⟨(sources.map sheet).map Sheet.report, _, ?_, Sheet.listing_report _, hn, ?_, ?_⟩
  case refine_1 =>
    rw [List.map_map]
    exact mapM_eq_some_map fun s hs => report?_eq_some (Document.room_events (hg s hs) (hu s hs))
  case refine_2 =>
    rw [hn, Nat.add_eq_left, List.sum_eq_zero_iff_forall_eq_nat, List.forall_mem_map]
  case refine_3 =>
    intro hz
    apply Sheet.splitOn_listing hp
    have hz : ∀ n ∈ (sources.flatMap calls).map Call.breaks, n = 0 := List.forall_mem_map.mpr hz
    rw [← hb] at hz
    exact List.forall_mem_map.mp hz

-- One example, which is named by a heredoc of two lines.
def folded : Source where
  document :=
    { text := "example <<-F do\n  two\n  lines\n  F\nend\n"
      hasErrors := false
      root := ⟨.other "program", 0, 38, true, false, none,
        [⟨.call, 0, 37, true, false, none,
          [⟨.identifier, 0, 7, true, false, some .method, []⟩,
           ⟨.other "argument_list", 8, 12, true, false, some .arguments,
            [⟨.heredocBeginning, 8, 12, true, false, none, []⟩]⟩,
           ⟨.other "do_block", 13, 37, true, false, some .block,
            [⟨.other "do", 13, 15, false, false, none, []⟩,
             ⟨.heredocBody, 15, 33, true, true, none,
              [⟨.heredocContent, 15, 32, true, false, none, []⟩,
               ⟨.other "heredoc_end", 32, 33, true, false, none, []⟩]⟩,
             ⟨.other "end", 34, 37, false, false, none, []⟩]⟩]⟩]⟩ }
  subject := ⟨"spec/a_spec.rb", .probed false false, false⟩

theorem nested_folded_newlines :
    ∃ files text,
      [⟨.nested, ⟨"a_spec.rb", .probed true false, false⟩⟩, folded].mapM report? = some files ∧
      (LensReport.ok files).listing = .ok text ∧ newlines text = 5 + 1 := by
  have ⟨files, text, hf, hl, hn, _⟩ :=
    listing_newlines [⟨.nested, ⟨"a_spec.rb", .probed true false, false⟩⟩, folded]
      (by decide) (by decide) (by decide)
  exact ⟨files, text, hf, hl, hn.trans (by decide)⟩

-- There should be one line for the example and one for the totals.
theorem folded_breaks_line :
    '\n' ∉ folded.subject.path.toList ∧ folded.calls.length = 1 ∧
      ∃ file, folded.report? = some file ∧
        (LensReport.ok [file]).listing =
          .ok "spec/a_spec.rb:1  example  two\n  lines\n3 lenses in 1 file(s)" ∧
        newlines "spec/a_spec.rb:1  example  two\n  lines\n3 lenses in 1 file(s)" = 2 := by
  have hr : Trail.start.Room (folded.document.events folded.document.root) :=
    Document.room_events (by decide) (by decide)
  have hl := Sheet.listing_report [folded.sheet]
  exact ⟨by decide, by decide, _, report?_eq_some hr, hl.trans (by decide), by decide⟩

end Source

end TestLens
