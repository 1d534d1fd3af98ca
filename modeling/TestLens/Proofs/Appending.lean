import TestLens.Proofs.Batch
import TestLens.Proofs.Journal

namespace TestLens

namespace Log.Event

theorem not_tagged {e : Event} (h : e.message.toList.head? ≠ some '[') : ¬ e.Tagged := by
  intro ⟨rest, hm⟩
  rw [hm, String.toList_append] at h
  exact h rfl

theorem not_tagged_resolvedBase (base : BaseCommand) : ¬ (resolvedBase base).Tagged := by
  have hm : (resolvedBase base).message = "resolved base command" := rfl
  apply not_tagged
  rw [hm]
  decide

theorem not_tagged_syntaxErrors (file : String) : ¬ (syntaxErrors file).Tagged := by
  have hm : (syntaxErrors file).message = "syntax errors in source, lenses may be incomplete" := rfl
  apply not_tagged
  rw [hm]
  decide

theorem Tagged.level_ne {e : Event} (h : e.Tagged) : e.level ≠ .warn := by
  cases e
  case syntaxErrors file => exact absurd h (not_tagged_syntaxErrors file)
  all_goals exact nofun

end Log.Event

namespace Collector

def onto (c : Collector) (sink : Array Lens) : Collector :=
  { c with lenses := sink ++ c.lenses }

theorem start_onto (subject : Subject) (sink : Array Lens) :
    (start subject #[]).onto sink = start subject sink := by
  simp [onto, start]

theorem write_onto (c : Collector) (sink : Array Lens) (output : Output) :
    (c.onto sink).write output = (c.write output).onto sink := by
  cases output <;> simp [onto, write]

theorem foldl_write_onto (c : Collector) (sink : Array Lens) (outputs : List Output) :
    outputs.foldl write (c.onto sink) = (outputs.foldl write c).onto sink := by
  apply List.foldl_hom fun c : Collector => c.onto sink
  exact fun c output => write_onto c sink output

theorem step_onto (c : Collector) (sink : Array Lens) (step : Step) :
    (c.onto sink).step step = (c.step step).map fun c => c.onto sink := by
  cases step
  case leave => rfl
  case enter call =>
    have ht : (c.onto sink).trail = c.trail := rfl
    rw [Collector.step, Collector.step, enter, enter, Option.map_map, ht]
    congr 1
    funext found
    exact foldl_write_onto { c with trail := found.1 } sink _

theorem steps_onto (c : Collector) (sink : Array Lens) (steps : List Step) :
    (c.onto sink).steps steps = (c.steps steps).map fun c => c.onto sink := by
  induction steps generalizing c
  case nil => rfl
  case cons step steps hi =>
    rw [steps_cons, steps_cons, step_onto]
    cases c.step step
    case none => rfl
    case some c => exact hi c

end Collector

namespace Document

-- The sink decides neither what is collected nor whether anything is.
theorem collect_onto (d : Document) (subject : Subject) (sink : Array Lens) :
    d.collect subject sink = (d.collect subject #[]).map fun c => c.onto sink := by
  rw [collect_eq_steps, collect_eq_steps, ← Collector.steps_onto, Collector.start_onto]

theorem collect_tagged {d : Document} {subject : Subject} {sink : Array Lens} {c : Collector}
    (h : d.collect subject sink = some c) : ∀ e ∈ c.log.toList, e.Tagged := by
  have ⟨hr, hc⟩ := collect_eq_some_iff.mp h
  rw [hc]
  exact Collector.ran_tagged hr

end Document

namespace Workspace

variable {disk : Disk} {parser : Parser} {root file : String} {options : Options} {source : String}
variable {sink : Array Lens}

-- Warnings in a log: there is one when the source has errors, and it comes before the accounts of
-- the collector.
structure Warns (log : List Log.Event) (path : String) (hasErrors : Bool) : Prop where
  once : log.filter (fun e => e.level = .warn) = if hasErrors then [.syntaxErrors path] else []
  first : log.Pairwise fun e f => e.Tagged → f.level ≠ .warn

theorem mem_baseCommand {override : Option String} {e : Log.Event}
    (h : e ∈ (baseCommand disk root override).2) : ∃ base, e = .resolvedBase base := by
  cases override
  case none => exact ⟨_, List.mem_singleton.mp h⟩
  case some => contradiction

theorem warns_append {found lines : List Log.Event} {path : String} {hasErrors : Bool}
    (hf : ∀ e ∈ found, ∃ base, e = .resolvedBase base) (hl : ∀ e ∈ lines, e.Tagged) :
    Warns (found ++ (if hasErrors then [.syntaxErrors path] else []) ++ lines) path hasErrors := by
  have hq : ∀ e ∈ found ++ if hasErrors then [.syntaxErrors path] else [], ¬ e.Tagged := by
    intro e he
    cases List.mem_append.mp he
    case inl he =>
      have ⟨base, hb⟩ := hf e he
      exact hb ▸ Log.Event.not_tagged_resolvedBase base
    case inr he =>
      have ⟨_, hs⟩ := List.mem_ite_nil_right.mp he
      exact List.mem_singleton.mp hs ▸ Log.Event.not_tagged_syntaxErrors path
  constructor
  case once =>
    have hf : found.filter (fun e => e.level = .warn) = [] := by
      apply List.filter_eq_nil_iff.mpr
      intro e he
      have ⟨base, hb⟩ := hf e he
      rw [hb]
      exact nofun
    have hl : lines.filter (fun e => e.level = .warn) = [] := by
      apply List.filter_eq_nil_iff.mpr
      intro e he
      simpa using (hl e he).level_ne
    rw [List.filter_append, List.filter_append, hf, hl, List.nil_append, List.append_nil]
    cases hasErrors <;> rfl
  case first =>
    refine List.pairwise_append.mpr ⟨?_, ?_, ?_⟩
    case refine_1 =>
      exact List.pairwise_of_forall_mem_list fun e he _ _ ht => absurd ht (hq e he)
    case refine_2 => exact List.pairwise_of_forall_mem_list fun _ _ f hm _ => (hl f hm).level_ne
    case refine_3 => exact fun _ _ f hm _ => (hl f hm).level_ne

theorem eq_of_relative_eq_error {e : Failure} (h : relative root file = .error e) :
    e = .outsideWorkspace file root := by
  unfold relative at h
  split at h
  case h_1 => contradiction
  case h_2 => exact (Except.error.inj h).symm

theorem collectInto_of_error {e : Failure} (h : relative root file = .error e) :
    collectInto disk parser root file options source sink = (sink, ⟨[], .error e⟩) := by
  rw [collectInto, h]
  rfl

theorem collectInto_eq_outside_iff {f r : String} :
    (collectInto disk parser root file options source sink).2.result =
        .error (.outsideWorkspace f r) ↔
      relative root file = .error (.outsideWorkspace f r) := by
  unfold collectInto
  cases relative root file
  case error => simp [Run.fail]
  case ok path =>
    cases parser source
    case none => simp [Failure.noTree]
    case some parse =>
      cases hc : Document.collect { parse with text := source }
        ⟨path, (baseCommand disk root options.command).1, options.debug⟩ sink <;> simp [hc]

theorem collectInto_of_ok {path : String} {parse : Parse} {c : Collector}
    (hp : relative root file = .ok path) (ht : parser source = some parse)
    (hc : Document.collect { parse with text := source }
      ⟨path, (baseCommand disk root options.command).1, options.debug⟩ #[] = some c) :
    collectInto disk parser root file options source sink =
      (sink ++ c.lenses.toList, ⟨(baseCommand disk root options.command).2 ++
        (if parse.hasErrors then [.syntaxErrors path] else []) ++ c.log.toList, .ok ()⟩) := by
  have hs := Document.collect_onto { parse with text := source }
    ⟨path, (baseCommand disk root options.command).1, options.debug⟩ sink
  rw [hc] at hs
  simp [collectInto, hp, ht, hs, Collector.onto, ← Array.toList_inj]

theorem collectInto_appends (disk : Disk) (parser : Parser) (root file : String)
    (options : Options) (source : String) (sink : Array Lens) :
    (∀ f r, (collectInto disk parser root file options source sink).2.result =
          .error (.outsideWorkspace f r) ↔
        relative root file = .error (.outsideWorkspace f r)) ∧
      (∀ e, relative root file = .error e →
        e = .outsideWorkspace file root ∧
          collectInto disk parser root file options source sink = (sink, ⟨[], .error e⟩)) ∧
      ∀ path parse, relative root file = .ok path → parser source = some parse →
        (Document.sites { parse with text := source }).countP Site.opensGroup ≤ 2 ^ 32 - 2 →
        (Document.sites { parse with text := source }).countP Site.isUnnamed ≤ 2 ^ 32 - 1 →
        ∃ lenses log, collect disk parser root file options source = ⟨log, .ok lenses⟩ ∧
          collectInto disk parser root file options source sink = (sink ++ lenses, ⟨log, .ok ()⟩) ∧
          Warns log path parse.hasErrors := by
  refine ⟨fun f r => collectInto_eq_outside_iff, ?_, ?_⟩
  case refine_1 => exact fun e h => ⟨eq_of_relative_eq_error h, collectInto_of_error h⟩
  case refine_2 =>
    intro path parse hp ht hg hu
    have hs : (Document.collect { parse with text := source }
        ⟨path, (baseCommand disk root options.command).1, options.debug⟩ #[]).isSome :=
      Document.collect_isSome_iff.mpr ⟨hg, hu⟩
    have ⟨c, hc⟩ := Option.isSome_iff_exists.mp hs
    refine ⟨c.lenses.toList, _, ?_, collectInto_of_ok hp ht hc, ?_⟩
    case refine_1 => simp [collect, collectInto_of_ok hp ht hc]
    case refine_2 => exact warns_append (fun e => mem_baseCommand) (Document.collect_tagged hc)

def brokenParser : Parser :=
  fun source => (twinParser source).map fun parse => { parse with hasErrors := true }

def earlier : Array Lens :=
  (Lens.triple "c_spec.rb" "C" ⟨"run", "rspec"⟩ (Extent.location ⟨1, 0, 1, 4⟩) none none).toArray

theorem twins_appends :
    (∃ lenses log, collect twins brokenParser "/w" "/w/a_spec.rb" ⟨none, true⟩ "it()" =
          ⟨log, .ok lenses⟩ ∧
        collectInto twins brokenParser "/w" "/w/a_spec.rb" ⟨none, true⟩ "it()" earlier =
          (earlier ++ lenses, ⟨log, .ok ()⟩) ∧
        Warns log "a_spec.rb" true) ∧
      collectInto twins brokenParser "/w" "/v/a_spec.rb" ⟨none, true⟩ "it()" earlier =
        (earlier, ⟨[], .error (.outsideWorkspace "/v/a_spec.rb" "/w")⟩) := by
  have ⟨_, _, h⟩ := collectInto_appends twins brokenParser "/w" "/w/a_spec.rb" ⟨none, true⟩ "it()"
    earlier
  have ⟨_, hv, _⟩ := collectInto_appends twins brokenParser "/w" "/v/a_spec.rb" ⟨none, true⟩ "it()"
    earlier
  have ⟨lenses, log, hc, hi, hw⟩ := h "a_spec.rb" _ (by decide) rfl (by decide) (by decide)
  exact ⟨⟨lenses, log, hc, hi, hw⟩, (hv _ (by decide)).right⟩

end Workspace

end TestLens
