import TestLens.Program
import TestLens.Proofs.Legibility
import TestLens.Proofs.Outline
import TestLens.Proofs.Traversal

namespace TestLens

-- The text that is printed is that of one value only. This is an error response, it has no other
-- members, and the code in it is the exit code.
structure Outcome.Reports (o : Outcome) (e : Failure) : Prop where
  printed : ∀ j : Json, j.pretty = o.stdout ↔ j = .obj [("status", .str "error"),
    ("schema_version", .str "1"), ("error", .obj ([("code", .nat o.exit.toNat),
      ("message", .str e.message)] ++ (e.details.map fun details => ("details", details)).toList))]
  decoded : ∀ j : Json, j.pretty = o.stdout →
    ErrorReport.decode? j = some ⟨"error", "1", ⟨o.exit, e.message, e.details⟩⟩
  exit : o.exit = e.code
  failed : o.exit ≠ 0

-- How a run ends that gives no text: with an error response, or with nothing when a counter
-- overflows.
inductive Outcome.Fails (o : Outcome) : Failure → Prop
  | reports {e : Failure} (he : e ≠ .exhausted) (reports : o.Reports e) : Fails o e
  | overflows (exit : o.exit = 101) (stdout : o.stdout = "") : Fails o .exhausted

def Document.countable (d : Document) : Bool :=
  d.sites.countP Site.opensGroup ≤ 2 ^ 32 - 2 && d.sites.countP Site.isUnnamed ≤ 2 ^ 32 - 1

theorem Document.countable_eq_isSome (d : Document) (subject : Subject) (sink : Array Lens) :
    d.countable = (d.collect subject sink).isSome := by
  rw [Bool.eq_iff_iff, collect_isSome_iff]
  simp [countable]

theorem Failure.details_ne_null (e : Failure) : e.details ≠ some .null := by
  cases e <;> simp [details]

theorem Outcome.reports_of_failure (e : Failure) (log : List Log.Event) (logJson : Bool) :
    Reports ⟨e.code, (ErrorReport.ofFailure e).encode.pretty, log, logJson⟩ e where
  printed _ := Json.pretty_injective.eq_iff
  decoded j hj := by
    rw [Json.pretty_injective hj]
    exact ErrorReport.decode?_encode_iff.mpr e.details_ne_null
  exit := rfl
  failed := e.code_ne_zero

namespace Workspace

-- The first of the files that fails when it is run alone fails with `e`.
def FailsFirst (disk : Disk) (parser : Parser) (root : String) (options : Options)
    (files : List String) (e : Failure) : Prop :=
  ∃ before file after, files = before ++ file :: after ∧
    (∀ other ∈ before, ∃ r, (report disk parser root options [other]).result = .ok r) ∧
    (report disk parser root options [file]).result = .error e

def entryFor? (parser : Parser) (root : String) (base : BaseCommand) (debug : Bool)
    (canonical content : String) : Option FileReport := do
  let path ← (relative root canonical).toOption
  let parse ← parser content
  let document : Document := { parse with text := content }
  if document.countable then return ⟨path, (document.triples ⟨path, base, debug⟩).flatten⟩
  else none

-- The entry tells what the file that is meant says, and nothing else.
def Describes (disk : Disk) (parser : Parser) (root : String) (options : Options)
    (file : String) (entry : FileReport) : Prop :=
  ∃ canonical content, resolveFile disk root file = .ok canonical ∧
    disk.read canonical = .ok content ∧
    entryFor? parser root (baseCommand disk root options.command).1 options.debug canonical
      content = some entry

variable {disk : Disk} {parser : Parser} {root : String} {options : Options} {files : List String}

theorem report_of_ne_nil (hf : files ≠ []) :
    report disk parser root options files =
      (LensReport.ok <$> files.mapM (reportFile disk parser root options)) := by
  rw [report, if_neg (by simpa using hf)]
  rfl

theorem report_eq_ok_iff (hf : files ≠ []) {r : LensReport} :
    (report disk parser root options files).result = .ok r ↔
      ∃ entries, List.Forall₂
          (fun file entry => (reportFile disk parser root options file).result = .ok entry)
          files entries ∧ .ok entries = r := by
  rw [report_of_ne_nil hf, map_eq_pure_bind, Run.bind_eq_ok_iff]
  simp only [Run.mapM_eq_ok_iff, Run.pure_eq, Except.ok.injEq]

theorem report_alone (file : String) :
    (report disk parser root options [file]).result =
      (reportFile disk parser root options file).result.map fun entry => .ok [entry] := by
  rw [report_of_ne_nil (List.cons_ne_nil _ _)]
  simp only [List.mapM_cons, List.mapM_nil, map_eq_pure_bind]
  obtain ⟨log, _ | entry⟩ := reportFile disk parser root options file <;> rfl

theorem report_eq_error_iff (hf : files ≠ []) {e : Failure} :
    (report disk parser root options files).result = .error e ↔
      FailsFirst disk parser root options files e := by
  have ho (file : String) : (∃ r, (report disk parser root options [file]).result = .ok r) ↔
      ∃ entry, (reportFile disk parser root options file).result = .ok entry := by
    rw [report_alone]
    cases (reportFile disk parser root options file).result <;> simp [Except.map]
  have he (file : String) : (report disk parser root options [file]).result = .error e ↔
      (reportFile disk parser root options file).result = .error e := by
    rw [report_alone]
    cases (reportFile disk parser root options file).result <;> simp [Except.map]
  rw [report_of_ne_nil hf, map_eq_pure_bind, Run.bind_eq_error_iff, Run.mapM_eq_error_iff]
  simp [FailsFirst, ho, he]

theorem report_append_eq_ok_iff {fs gs : List String} (hf : fs ≠ []) (hg : gs ≠ [])
    {r : LensReport} :
    (report disk parser root options (fs ++ gs)).result = .ok r ↔
      ∃ r₁ r₂, (report disk parser root options fs).result = .ok r₁ ∧
        (report disk parser root options gs).result = .ok r₂ ∧
        .ok (r₁.files ++ r₂.files) = r := by
  rw [report_eq_ok_iff (by simp [hf])]
  simp only [report_eq_ok_iff hf, report_eq_ok_iff hg]
  constructor
  case mp =>
    intro ⟨entries, h, hr⟩
    have h₁ := List.forall₂_take fs.length h
    have h₂ := List.forall₂_drop fs.length h
    rw [List.take_left] at h₁
    rw [List.drop_left] at h₂
    refine ⟨_, _, ⟨_, h₁, rfl⟩, ⟨_, h₂, rfl⟩, ?_⟩
    simpa [LensReport.ok] using hr
  case mpr =>
    intro ⟨_, _, ⟨es, h₁, rfl⟩, ⟨es', h₂, rfl⟩, hr⟩
    exact ⟨es ++ es', List.rel_append h₁ h₂, hr⟩

theorem collect_eq_ok_iff {file source : String} {lenses : List Lens} :
    (collect disk parser root file options source).result = .ok lenses ↔
      ∃ path parse, relative root file = .ok path ∧ parser source = some parse ∧
        Document.countable { parse with text := source } ∧
        (Document.triples { parse with text := source }
          ⟨path, (baseCommand disk root options.command).1, options.debug⟩).flatten = lenses := by
  simp only [collect, collectInto, Run.bind_eq_ok_iff]
  cases relative root file
  case error => simp [Run.fail]
  case ok path =>
    cases parser source
    case none => simp
    case some parse =>
      have hn := Document.countable_eq_isSome { parse with text := source }
        ⟨path, (baseCommand disk root options.command).1, options.debug⟩ #[]
      cases hc : Document.collect { parse with text := source }
        ⟨path, (baseCommand disk root options.command).1, options.debug⟩ #[]
      case none => simp [hc, hn]
      case some c =>
        have hl := Document.collect_lenses hc
        simp_all

theorem entryFor?_eq_some_iff {base : BaseCommand} {debug : Bool} {canonical content : String}
    {entry : FileReport} :
    entryFor? parser root base debug canonical content = some entry ↔
      ∃ path parse, relative root canonical = .ok path ∧ parser content = some parse ∧
        Document.countable { parse with text := content } ∧
        ⟨path, (Document.triples { parse with text := content } ⟨path, base, debug⟩).flatten⟩ =
          entry := by
  unfold entryFor?
  cases relative root canonical
  case error => simp [Except.toOption]
  case ok path => cases parser content <;> simp [Except.toOption]

theorem path_of_mem_triples {d : Document} {subject : Subject} {lens : Lens}
    (h : lens ∈ (d.triples subject).flatten) : lens.arguments.path = subject.path := by
  have ⟨triple, ht, hl⟩ := List.mem_flatten.mp h
  obtain ⟨site, _, rfl⟩ := List.mem_map.mp ht
  exact ((d.entryOf site).lenses_shows subject).path lens hl

theorem Describes.paths {file : String} {entry : FileReport}
    (h : Describes disk parser root options file entry) :
    ∀ lens ∈ entry.lenses, lens.arguments.path = entry.path := by
  have ⟨canonical, content, _, _, he⟩ := h
  obtain ⟨path, parse, _, _, _, rfl⟩ := entryFor?_eq_some_iff.mp he
  exact fun lens hl => path_of_mem_triples hl

theorem reportFile_eq_ok_iff {file : String} {entry : FileReport} :
    (reportFile disk parser root options file).result = .ok entry ↔
      Describes disk parser root options file entry := by
  have hr (canonical source : String) :
      (disk.read canonical).mapError Failure.io = .ok source ↔ disk.read canonical = .ok source := by
    cases disk.read canonical <;> simp [Except.mapError]
  simp only [reportFile, Run.bind_eq_ok_iff, Run.ofExcept, Run.note, Run.pure_eq, hr,
    collect_eq_ok_iff, Describes, entryFor?_eq_some_iff, Except.ok.injEq]
  constructor
  case mp =>
    intro ⟨canonical, hc, source, hs, _, ⟨path, parse, hp, hparse, hn, rfl⟩, path', hp', _, _, he⟩
    cases hp.symm.trans hp'
    exact ⟨canonical, source, hc, hs, path, parse, hp, hparse, hn, he⟩
  case mpr =>
    intro ⟨canonical, source, hc, hs, path, parse, hp, hparse, hn, he⟩
    exact ⟨canonical, hc, source, hs, _, ⟨path, parse, hp, hparse, hn, rfl⟩, path, hp, (), trivial,
      he⟩

theorem report_eq_ok_iff_describes (hf : files ≠ []) {r : LensReport} :
    (report disk parser root options files).result = .ok r ↔
      ∃ entries, List.Forall₂ (Describes disk parser root options) files entries ∧
        .ok entries = r := by
  simp only [report_eq_ok_iff hf, reportFile_eq_ok_iff]

theorem run_fails {environment : Option Log.Filter} {words : List String}
    {side : CommandLine.Side} {action : CommandLine.Action} {e : Failure}
    (hw : CommandLine.read? words = some (.act side action))
    (he : (Program.execute disk parser side action).result = .error e) :
    (Program.run disk parser environment words).Fails e := by
  by_cases hx : e = .exhausted
  case pos =>
    subst hx
    simp only [Program.run, hw, he]
    exact .overflows rfl rfl
  case neg =>
    have hr : Program.run disk parser environment words = ⟨e.code,
        (ErrorReport.ofFailure e).encode.pretty,
        (Program.execute disk parser side action).log.filter (Program.filter environment side).passes,
        side.logJson⟩ := by
      cases e <;> simp_all [Program.run]
    rw [hr]
    exact .reports hx (Outcome.reports_of_failure e _ _)

theorem execute_eq_error {side : CommandLine.Side} {e : Failure}
    (hr : resolveRoot disk side.workspace = .ok root)
    (he : (report disk parser root ⟨side.command, side.debug⟩ files).result = .error e) :
    (Program.execute disk parser side (.lens files)).result = .error e := by
  simp only [Program.execute, Run.bind_eq_error_iff, Run.ofExcept, hr]
  exact .inr ⟨root, rfl, .inl he⟩

structure Filewise (disk : Disk) (parser : Parser) (root : String) (options : Options) : Prop where
  append : ∀ fs gs, fs ≠ [] → gs ≠ [] → ∀ r,
    (report disk parser root options (fs ++ gs)).result = .ok r ↔
      ∃ r₁ r₂, (report disk parser root options fs).result = .ok r₁ ∧
        (report disk parser root options gs).result = .ok r₂ ∧ .ok (r₁.files ++ r₂.files) = r
  failure : ∀ files, files ≠ [] → ∀ e,
    (report disk parser root options files).result = .error e ↔
      FailsFirst disk parser root options files e
  entries : ∀ files, files ≠ [] → ∀ r,
    (report disk parser root options files).result = .ok r ↔
      ∃ entries, List.Forall₂ (Describes disk parser root options) files entries ∧ .ok entries = r
  paths : ∀ file entry, Describes disk parser root options file entry →
    ∀ lens ∈ entry.lenses, lens.arguments.path = entry.path
  -- The output format is one of the options on the side.
  printed : ∀ environment words side action e,
    CommandLine.read? words = some (.act side action) →
    (Program.execute disk parser side action).result = .error e →
    (Program.run disk parser environment words).Fails e
  printedFirst : ∀ environment words side files e,
    CommandLine.read? words = some (.act side (.lens files)) →
    resolveRoot disk side.workspace = .ok root → ⟨side.command, side.debug⟩ = options →
    FailsFirst disk parser root options files e →
    (Program.run disk parser environment words).Fails e

theorem report_filewise (disk : Disk) (parser : Parser) (root : String) (options : Options) :
    Filewise disk parser root options := by
  constructor
  case append => exact fun fs gs hf hg r => report_append_eq_ok_iff hf hg
  case failure => exact fun files hf e => report_eq_error_iff hf
  case entries => exact fun files hf r => report_eq_ok_iff_describes hf
  case paths => exact fun file entry h => h.paths
  case printed => exact fun environment words side action e => run_fails
  case printedFirst =>
    intro environment words side files e hw hr ho he
    subst ho
    have hf : files ≠ [] := by
      obtain ⟨before, file, after, rfl, _⟩ := he
      simp
    exact run_fails hw (execute_eq_error hr ((report_eq_error_iff hf).mpr he))

def twins : Disk where
  currentDir := .ok "/w"
  canonicalize path :=
    if path ∈ ["/w", "/w/a_spec.rb", "/w/b_spec.rb"] then .ok path else .error .notFound
  isFile path := path ∈ ["/w/a_spec.rb", "/w/b_spec.rb"]
  isDir path := path = "/w"
  read _ := .ok "it()"

def twinParser : Parser :=
  fun _ => some ⟨⟨.call, 0, 4, true, false, none,
    [⟨.identifier, 0, 2, true, false, some .method, []⟩]⟩, false⟩

-- The text format was asked for, and a file before the missing one is fine.
theorem twins_filewise :
    ∃ r, (report twins twinParser "/w" ⟨none, false⟩ ["a_spec.rb", "b_spec.rb"]).result = .ok r ∧
      r.files.map (fun entry => (entry.path, entry.lenses.map fun lens => lens.arguments.name)) =
        [("a_spec.rb", ["<unnamed-1>", "<unnamed-1>", "<unnamed-1>"]),
         ("b_spec.rb", ["<unnamed-1>", "<unnamed-1>", "<unnamed-1>"])] ∧
      ∃ o, Program.run twins twinParser none
          ["--format", "text", "lens", "a_spec.rb", "c_spec.rb", "b_spec.rb"] = o ∧
        o.Reports (.fileNotFound "c_spec.rb") ∧ o.exit = 3 ∧
        o.stdout = "\x7b\n  \"status\": \"error\",\n  \"schema_version\": \"1\",\n" ++
          "  \"error\": \x7b\n    \"code\": 3,\n    \"message\": \"file not found: c_spec.rb\",\n" ++
          "    \"details\": \x7b\n      \"path\": \"c_spec.rb\"\n    \x7d\n  \x7d\n\x7d\n" := by
  have h := report_filewise twins twinParser "/w" ⟨none, false⟩
  have alone (file : String) (hf : file ∈ ["a_spec.rb", "b_spec.rb"]) :
      ∃ r, (report twins twinParser "/w" ⟨none, false⟩ [file]).result = .ok r ∧
        r.files.map (fun entry => (entry.path, entry.lenses.map fun lens => lens.arguments.name)) =
          [(file, ["<unnamed-1>", "<unnamed-1>", "<unnamed-1>"])] := by
    simp only [report_alone, reportFile, collect, collectInto, Document.collect_eq_steps]
    simp only [List.mem_cons, List.not_mem_nil, or_false] at hf
    obtain rfl | rfl := hf <;> exact ⟨_, rfl, rfl⟩
  have ⟨ra, ha, hna⟩ := alone "a_spec.rb" (by simp)
  have ⟨rb, hb, hnb⟩ := alone "b_spec.rb" (by simp)
  have hf : FailsFirst twins twinParser "/w" ⟨none, false⟩ ["a_spec.rb", "c_spec.rb", "b_spec.rb"]
      (.fileNotFound "c_spec.rb") := by
    refine ⟨["a_spec.rb"], "c_spec.rb", ["b_spec.rb"], rfl, ?_, rfl⟩
    exact fun other ho => ⟨ra, List.mem_singleton.mp ho ▸ ha⟩
  have hp := h.printedFirst none
    ["--format", "text", "lens", "a_spec.rb", "c_spec.rb", "b_spec.rb"]
    ⟨none, none, none, some .text, false, false⟩ _ _ rfl rfl rfl hf
  refine ⟨.ok (ra.files ++ rb.files), ?_, by simp [LensReport.ok, hna, hnb], _, rfl, ?_⟩
  case refine_1 => exact (h.append _ _ (by simp) (by simp) _).mpr ⟨ra, rb, ha, hb, rfl⟩
  case refine_2 =>
    cases hp
    case reports hr =>
      refine ⟨hr, hr.exit, ?_⟩
      rw [← (hr.printed _).mpr rfl, hr.exit]
      decide +kernel

end Workspace

end TestLens
