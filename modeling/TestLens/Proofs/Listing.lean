import TestLens.Proofs.Noninterference
import TestLens.Proofs.Traversal
import TestLens.Report.Listing

namespace TestLens

-- Counting a line down and up again leaves it as it was, but for line zero.
theorem succWord?_lineAbove (n : UInt32) :
    ∃ line, succWord? (lineAbove n) = some line ∧ line.toNat = max n.toNat 1 := by
  by_cases h : n = 0
  case pos =>
    subst h
    exact ⟨1, rfl, rfl⟩
  case neg =>
    have hn : n.toNat ≠ 0 := fun hz => h (UInt32.toNat_inj.mp hz)
    have hp : (n - 1).toNat = n.toNat - 1 :=
      UInt32.toNat_sub_of_le _ _ (UInt32.le_iff_toNat_le.mpr (Nat.one_le_iff_ne_zero.mpr hn))
    have hl : n.toNat - 1 + 1 < UInt32.size := by
      have := n.toNat_lt_size
      omega
    refine ⟨n, ?_, by omega⟩
    rw [lineAbove, if_neg h, succWord?, hp, if_pos hl, UInt32.sub_add_cancel]

namespace Entry

def listedLine (e : Entry) : Nat :=
  max e.call.line.toNat 1

def label (e : Entry) : String :=
  match e.id with
  | some id => "group " ++ toString id.val.toNat
  | none => "example"

def parent (e : Entry) : String :=
  match e.group with
  | some group => "  (group " ++ toString group.val.toNat ++ ")"
  | none => ""

def listed (path : String) (e : Entry) : String :=
  path ++ ":" ++ toString e.listedLine ++ "  " ++ e.label ++ "  " ++ e.name ++ e.parent

-- The lens that stands for its call in a listing.
def firstLens (subject : Subject) (e : Entry) : Lens :=
  .of subject.path e.name (subject.commands e.call) e.call.extent.location e.group e.id .test

theorem entry?_firstLens (path : String) (subject : Subject) (e : Entry) :
    Lens.entry? path (e.firstLens subject) = some (e.listed path) := by
  have ⟨line, hs, hl⟩ := succWord?_lineAbove e.call.line
  have hs : succWord? (e.firstLens subject).arguments.location.startLine = some line := hs
  unfold Lens.entry?
  rw [hs, listed, listedLine, ← hl]
  rfl

theorem firstOfThree_lenses (subject : Subject) (es : List Entry) :
    firstOfThree (es.flatMap (lenses subject)) = es.map (firstLens subject) := by
  induction es
  case nil => rfl
  case cons e es hi => exact congrArg (e.firstLens subject :: ·) hi

theorem length_flatMap_lenses (subject : Subject) (es : List Entry) :
    (es.flatMap (lenses subject)).length = 3 * es.length := by
  have hl (e : Entry) : (e.lenses subject).length = 3 := rfl
  simp [List.length_flatMap, hl, Nat.mul_comm]

end Entry

structure Sheet where
  path : String
  subject : Subject
  entries : List Entry

namespace Sheet

def report (s : Sheet) : FileReport where
  path := s.path
  lenses := s.entries.flatMap (Entry.lenses s.subject)

def lines (s : Sheet) : List String :=
  s.entries.map (Entry.listed s.path)

def totals (sheets : List Sheet) : String :=
  toString (3 * (sheets.flatMap entries).length) ++ " lenses in " ++ toString sheets.length ++
    " file(s)"

theorem entries?_report (s : Sheet) : s.report.entries? = some s.lines := by
  rw [FileReport.entries?, report, Entry.firstOfThree_lenses, List.mapM_map]
  exact mapM_eq_some_map fun e _ => e.entry?_firstLens s.path s.subject

theorem lensCount_report (sheets : List Sheet) :
    (LensReport.ok (sheets.map report)).lensCount = 3 * (sheets.flatMap entries).length := by
  rw [LensReport.lensCount, LensReport.ok]
  induction sheets
  case nil => rfl
  case cons s sheets hi =>
    simp only [List.map_cons, List.flatMap_cons, List.length_append, hi, Nat.mul_add]
    rw [report, Entry.length_flatMap_lenses]

-- A report that is made from entries is always listed, with one line of text for each of them.
theorem listing_report (sheets : List Sheet) :
    (LensReport.ok (sheets.map report)).listing =
      .ok ("\n".intercalate (sheets.flatMap lines ++ [totals sheets])) := by
  have hm : (sheets.map report).mapM FileReport.entries? = some (sheets.map lines) := by
    rw [List.mapM_map]
    exact mapM_eq_some_map fun s _ => s.entries?_report
  have ht : (LensReport.ok (sheets.map report)).totals = totals sheets := by
    rw [LensReport.totals, lensCount_report, totals, LensReport.ok, List.length_map]
  have hf : (LensReport.ok (sheets.map report)).files = sheets.map report := rfl
  rw [LensReport.listing, hf, hm, ht, List.flatMap_def]

end Sheet

structure Session where
  path : String
  subject : Subject
  steps : List Step

namespace Session

def report? (s : Session) : Option FileReport :=
  ((Collector.start s.subject #[]).steps s.steps).map fun c => ⟨s.path, c.lenses.toList⟩

def calls (s : Session) : List Call :=
  s.steps.filterMap Step.emitted?

def sheet (s : Session) : Sheet where
  path := s.path
  subject := s.subject
  entries := Trail.start.entries s.steps

theorem report?_eq_some {s : Session} (hr : Trail.start.Room s.steps) :
    s.report? = some s.sheet.report := by
  have hc : (Collector.start s.subject #[]).steps s.steps = some _ :=
    Collector.steps_eq_some_iff.mpr ⟨hr, rfl⟩
  rw [report?, hc, Option.map_some, Collector.ran_lenses]
  rfl

theorem length_entries (sessions : List Session) :
    ((sessions.map sheet).flatMap Sheet.entries).length = (sessions.flatMap calls).length := by
  have hl (s : Session) : s.sheet.entries.length = s.calls.length := by
    rw [calls, ← Trail.entries_calls .start, List.length_map, sheet]
  simp only [List.flatMap_map, List.length_flatMap, hl]

-- The entries from which a file is listed are those of its lenses, one for each call in order. The
-- line in an entry is the line at which the commands of its lenses aim.
structure Aligned (s : Session) (file : FileReport) : Prop where
  path : file.path = s.path
  lenses : file.lenses = s.sheet.entries.flatMap (Entry.lenses s.subject)
  calls : s.sheet.entries.map Entry.call = s.calls
  line : ∀ e ∈ s.sheet.entries, 1 ≤ e.call.line.toNat →
    (e.lenses s.subject).map (fun lens => (lens.data.kind, lens.arguments.command)) =
      [(.test, "bundle exec rspec " ++ (s.subject.path ++ ":" ++ toString e.listedLine)),
       (.testInTerminal,
        s.subject.base.command ++ " " ++ (s.subject.path ++ ":" ++ toString e.listedLine)),
       (.debug, "bundle exec rspec " ++ (s.subject.path ++ ":" ++ toString e.listedLine))]

theorem aligned (s : Session) : s.Aligned s.sheet.report where
  path := rfl
  lenses := rfl
  calls := Trail.entries_calls .start s.steps
  line := by
    intro e _ hl
    rw [Entry.listedLine, Nat.max_eq_left hl]
    exact e.lenses_commands s.subject

theorem listing_aligned (sessions : List Session)
    (hg : ∀ s ∈ sessions, s.steps.countP Step.opensGroup ≤ 2 ^ 32 - 2)
    (hu : ∀ s ∈ sessions, s.steps.countP Step.isUnnamed ≤ 2 ^ 32 - 1) :
    ∃ files, sessions.mapM report? = some files ∧
      List.Forall₂ Aligned sessions files ∧
      (LensReport.ok files).listing = .ok ("\n".intercalate
        ((sessions.flatMap fun s => s.sheet.entries.map (Entry.listed s.path)) ++
          [toString (3 * (sessions.flatMap calls).length) ++ " lenses in " ++
            toString sessions.length ++ " file(s)"])) := by
  refine ⟨(sessions.map sheet).map Sheet.report, ?_, ?_, ?_⟩
  case refine_1 =>
    rw [List.map_map]
    exact mapM_eq_some_map fun s hs => report?_eq_some (Trail.room_start (hg s hs) (hu s hs))
  case refine_2 =>
    rw [List.map_map, List.forall₂_map_right_iff, List.forall₂_same]
    exact fun s _ => s.aligned
  case refine_3 =>
    rw [Sheet.listing_report, Sheet.totals, length_entries, List.flatMap_map, List.length_map]
    rfl

-- Calls on the first and on the last line that there can be, a leave without an enter, and a file
-- without any call.
def extremes : List Session :=
  [⟨"a_spec.rb", ⟨"a_spec.rb", .probed true false, false⟩,
    [.leave (call .other none 1), .enter (call .group (some (.call "A")) 0),
     .enter (call .single none 4294967295)]⟩,
   ⟨"b_spec.rb", ⟨"b_spec.rb", .probed true false, false⟩, []⟩]
where
  call (role : Role) (argument : Option Argument) (line : UInt32) : Call :=
    ⟨"m", role, none, argument, 0, true, ⟨line, 0, line, 1⟩⟩

theorem extremes_aligned :
    ∃ files, extremes.mapM report? = some files ∧
      List.Forall₂ Aligned extremes files ∧
      (LensReport.ok files).listing = .ok ("a_spec.rb:1  group 1  <A>\n" ++
        "a_spec.rb:4294967295  example  <unnamed-1>  (group 1)\n" ++ "6 lenses in 2 file(s)") := by
  have ⟨files, hf, ha, hl⟩ := listing_aligned extremes (by decide) (by decide)
  exact ⟨files, hf, ha, hl.trans (by decide)⟩

end Session

end TestLens
