import TestLens.Proofs.Listing
import TestLens.Proofs.Targets

-- A collector writes to its log and to the lenses. Both are seen here as parts of one list, in which
-- the event that announces the lenses of a call stands right before them.
namespace TestLens

namespace Subject

def noted (s : Subject) (e : Log.Event) : List Log.Event :=
  if s.debug then [e] else []

def announcement (s : Subject) (call : Call) (name command : String) : String :=
  "[CodeLens] " ++ (call.method ++ " " ++ Text.quoted name ++ " at " ++ s.path ++ ":" ++
    toString call.line.toNat ++ " -> " ++ command)

def dismissal (s : Subject) (call : Call) : String :=
  "[CodeLens] " ++ ("skipping " ++ call.method ++ " at " ++ s.path ++ ":" ++
    toString call.line.toNat ++ " (receiver: " ++
    (call.receiver.elim "None" fun r => "Some(" ++ Text.quoted r ++ ")") ++ ", block: " ++
    (if call.block then "true" else "false") ++ ")")

-- A name may hold quotes, and whatever else the line goes on with.
theorem announcement_inj {s : Subject} {call call' : Call} {name name' command command' : String}
    (hm : call.method = call'.method)
    (h : s.announcement call name command = s.announcement call' name' command') :
    name = name' ∧ call.line = call'.line ∧ command = command' := by
  simp only [announcement, hm, String.append_assoc, String.append_right_inj] at h
  obtain ⟨hn, h⟩ := Text.quoted_append_inj h
  simp only [String.append_right_inj] at h
  have h := congrArg String.toList h
  simp only [Nat.toString_eq_repr, String.toList_append, Nat.toList_repr] at h
  obtain ⟨hl, hc⟩ := Text.append_inj_of_all (fun _ => Json.isDigit_of_mem)
    (fun _ => Json.isDigit_of_mem) (by simp) (by simp) h
  refine ⟨hn, UInt32.toNat_inj.mp (Json.toDigits_injective hl), ?_⟩
  exact String.toList_inj.mp (List.append_cancel_left hc)

end Subject

namespace Log.Event

-- The events by which a collector accounts for what it does.
def Tagged (e : Event) : Prop :=
  ∃ rest, e.message = "[CodeLens] " ++ rest

structure Tells (e : Event) (text : String) : Prop where
  level : e.level = .debug
  message : e.message = text
  bare : e.fields = []

theorem emitted_tells (subject : Subject) (call : Call) (name command : String) :
    (emitted call.method name subject.path call.line command).Tells
      (subject.announcement call name command) where
  level := rfl
  message := by
    unfold message Subject.announcement target
    simp only [String.append_assoc]
  bare := rfl

theorem skipped_tells (subject : Subject) (call : Call) :
    (skipped call.method subject.path call.line call.receiver call.block).Tells
      (subject.dismissal call) where
  level := rfl
  message := by
    have hb : toString call.block = if call.block then "true" else "false" := by
      cases call.block <;> rfl
    have hs : "[CodeLens] skipping " = "[CodeLens] " ++ "skipping " := by decide
    have ho : Text.quotedOption call.receiver =
        call.receiver.elim "None" fun r => "Some(" ++ Text.quoted r ++ ")" := by
      cases call.receiver <;> rfl
    unfold message Subject.dismissal target
    simp only [hs, hb, ho, String.append_assoc]
  bare := rfl

-- What a log says about a call of the framework: that it gets lenses, or that it is passed over.
inductive About (subject : Subject) : Call → Event → Prop
  | emitted {call : Call} {e : Event} {name command : String} (emits : call.emits)
      (tells : e.Tells (subject.announcement call name command)) : About subject call e
  | skipped {call : Call} {e : Event} (skips : call.emits = false)
      (tells : e.Tells (subject.dismissal call)) : About subject call e

theorem About.tagged {subject : Subject} {call : Call} {e : Event} (h : About subject call e) :
    e.Tagged := by
  cases h
  case emitted tells => exact ⟨_, tells.message⟩
  case skipped tells => exact ⟨_, tells.message⟩

theorem forall₂_tagged {subject : Subject} {calls : List Call} {events : List Event}
    (h : List.Forall₂ (About subject) calls events) : ∀ e ∈ events, e.Tagged := by
  induction h
  case nil => exact nofun
  case cons h _ hi => exact List.forall_mem_cons.mpr ⟨h.tagged, hi⟩

end Log.Event

namespace Step

def noteworthy? : Step → Option Call
  | .enter call => if call.role = .other then none else some call
  | .leave _ => none

-- What is written for a step, in order. The name and the command in the log are those of the lenses
-- that come next, and all commands aim at the line in the log.
inductive Writes (subject : Subject) : Step → List Output → Prop
  | emitting {call : Call} {e : Log.Event} {lenses : List Lens} {name command : String}
      (emits : call.emits) (tells : e.Tells (subject.announcement call name command))
      (triple : Triple subject call lenses) (named : ∀ lens ∈ lenses, lens.arguments.name = name)
      (aimed : ∀ lens ∈ lenses, ∃ base,
        lens.arguments.command = base ++ " " ++ target subject.path call.line)
      (run : LensKind.test.commandAmong? lenses = some command) :
      Writes subject (.enter call) ((subject.noted e).map .event ++ lenses.map .lens)
  | skipping {call : Call} {e : Log.Event} (group : call.role = .group) (skips : call.emits = false)
      (tells : e.Tells (subject.dismissal call)) :
      Writes subject (.enter call) ((subject.noted e).map .event)
  | passing {call : Call} (other : call.role = .other) : Writes subject (.enter call) []
  | leaving {call : Call} : Writes subject (.leave call) []

namespace Writes

variable {subject : Subject} {step : Step} {steps : List Step}
variable {outputs : List Output} {written : List (List Output)}

theorem about (hd : subject.debug) (h : Writes subject step outputs) :
    List.Forall₂ (Log.Event.About subject) step.noteworthy?.toList
      (outputs.filterMap Output.event?) := by
  cases h
  case emitting call _ _ _ _ emits tells _ _ _ _ =>
    have hr : call.role ≠ .other := by
      intro hr
      simp [Call.emits, Call.opensGroup, hr] at emits
    simpa [noteworthy?, hr, Subject.noted, hd] using Log.Event.About.emitted emits tells
  case skipping call _ group skips tells =>
    simpa [noteworthy?, group, Subject.noted, hd] using Log.Event.About.skipped skips tells
  case passing call other => simp [noteworthy?, other]
  case leaving => exact .nil

theorem silent (hd : subject.debug = false) (h : Writes subject step outputs) :
    outputs.filterMap Output.event? = [] := by
  cases h
  case emitting => simp [Subject.noted, hd]
  case skipping => simp [Subject.noted, hd]
  case passing => rfl
  case leaving => rfl

-- What holds of the events of each step holds of the whole log, since it is theirs in order.
theorem forall₂_about (hd : subject.debug) (h : List.Forall₂ (Writes subject) steps written) :
    List.Forall₂ (Log.Event.About subject) (steps.filterMap noteworthy?)
      (written.flatten.filterMap Output.event?) := by
  induction h
  case nil => exact .nil
  case cons step outputs steps written h _ hi =>
    have hs : (step :: steps).filterMap noteworthy? =
        step.noteworthy?.toList ++ steps.filterMap noteworthy? := by
      cases hn : step.noteworthy? <;> simp [hn]
    rw [hs, List.flatten_cons, List.filterMap_append]
    exact List.rel_append (h.about hd) hi

theorem forall₂_silent (hd : subject.debug = false)
    (h : List.Forall₂ (Writes subject) steps written) :
    written.flatten.filterMap Output.event? = [] := by
  induction h
  case nil => rfl
  case cons step outputs steps written h _ hi =>
    rw [List.flatten_cons, List.filterMap_append, h.silent hd, hi, List.nil_append]

end Writes

def mixed : List Step :=
  [.enter ⟨"describe", .group, some "RSpec", some (.other "Cart"), 1, true, ⟨1, 0, 9, 3⟩⟩,
   .enter ⟨"it", .single, none, some (.string "is \"cafe\u0301\"\n"), 1, true, ⟨2, 2, 4, 5⟩⟩,
   .enter ⟨"before", .other, none, none, 0, true, ⟨3, 4, 3, 9⟩⟩,
   .enter ⟨"it", .single, none, none, 0, false, ⟨5, 2, 5, 4⟩⟩,
   .leave ⟨"it", .single, none, none, 0, false, ⟨5, 2, 5, 4⟩⟩,
   .enter ⟨"context", .group, some "Foo", some (.string "x"), 1, true, ⟨6, 2, 7, 5⟩⟩]

end Step

namespace Entry

theorem lenses_aimed (subject : Subject) (e : Entry) :
    ∀ lens ∈ e.lenses subject, ∃ base,
      lens.arguments.command = base ++ " " ++ target subject.path e.call.line := by
  refine List.forall_mem_map.mpr fun kind _ => ?_
  cases kind
  case test => exact ⟨Commands.runnerCommand, rfl⟩
  case testInTerminal => exact ⟨subject.base.command, rfl⟩
  case debug => exact ⟨Commands.runnerCommand, rfl⟩

end Entry

namespace Collector

variable {c : Collector} {step : Step} {steps : List Step}

def outputs (c : Collector) : Step → List Output
  | .enter call =>
    match c.trail.enter call with
    | some (_, finding) => c.subject.outputs call finding
    | none => []
  | .leave _ => []

def written (c : Collector) : List Step → List (List Output)
  | [] => []
  | step :: steps =>
    match c.step step with
    | some next => c.outputs step :: next.written steps
    | none => []

theorem took_subject (c : Collector) (step : Step) : (c.took step).subject = c.subject := by
  cases step <;> rfl

theorem took_trail (c : Collector) (step : Step) : (c.took step).trail = c.trail.took step := by
  cases step <;> rfl

theorem outputs_enter {call : Call} (hf : c.trail.Fits call) :
    c.outputs (.enter call) = c.subject.outputs call (c.trail.finding call) := by
  rw [outputs, Trail.enter_eq, if_pos hf]

theorem step_eq_some (hr : c.trail.Room [step]) : c.step step = some (c.took step) := by
  cases step
  case enter call => rw [Collector.step, enter_eq, if_pos (Trail.room_enter_iff.mp hr).left]
  case leave => rfl

theorem written_cons (hr : c.trail.Room [step]) :
    c.written (step :: steps) = c.outputs step :: (c.took step).written steps := by
  rw [written, step_eq_some hr]

theorem took_eq_write (hr : c.trail.Room [step]) :
    c.took step = (c.outputs step).foldl write { c with trail := c.trail.took step } := by
  cases step
  case enter call =>
    rw [outputs_enter (Trail.room_enter_iff.mp hr).left]
    simp [foldl_write, took, Trail.took]
  case leave => rfl

theorem outputs_writes (hr : c.trail.Room [step]) :
    Step.Writes c.subject step (c.outputs step) := by
  cases step
  case leave => exact .leaving
  case enter call =>
    rw [outputs_enter (Trail.room_enter_iff.mp hr).left, Trail.finding]
    cases he : call.emits
    case true =>
      have hs := (c.trail.entry call).lenses_shows c.subject
      exact .emitting he (Log.Event.emitted_tells c.subject call _ _)
        (hs.triple (c.trail.isSome_opening call)) hs.name
        ((c.trail.entry call).lenses_aimed c.subject)
        ((c.trail.entry call).commandAmong?_lenses c.subject .test)
    case false =>
      by_cases hg : call.role = .group
      case pos =>
        rw [if_neg Bool.false_ne_true, if_pos hg, Subject.outputs, Subject.lenses, List.map_nil,
          List.append_nil]
        exact .skipping hg he (Log.Event.skipped_tells c.subject call)
      case neg =>
        have ho : call.role = .other := by
          cases hr : call.role <;> simp_all [Call.emits]
        have hn : c.subject.outputs call .nothing = [] := by
          simp [Subject.outputs, Subject.events, Subject.lenses]
        rw [if_neg Bool.false_ne_true, if_neg hg, hn]
        exact .passing ho

theorem room_cons (hr : c.trail.Room (step :: steps)) :
    c.trail.Room [step] ∧ (c.took step).trail.Room steps := by
  have hr : c.trail.Room ([step] ++ steps) := hr
  exact ⟨hr.left, c.took_trail step ▸ hr.right⟩

theorem written_writes (hr : c.trail.Room steps) :
    List.Forall₂ (Step.Writes c.subject) steps (c.written steps) := by
  induction steps generalizing c
  case nil => exact .nil
  case cons step steps hi =>
    have ⟨hs, hm⟩ := room_cons hr
    rw [written_cons hs]
    exact .cons (outputs_writes hs) (c.took_subject step ▸ hi hm)

-- The trail decides what is written, but writing leaves it alone.
theorem ran_eq_write (hr : c.trail.Room steps) :
    c.ran steps = (c.written steps).flatten.foldl write { c with trail := c.trail.ran steps } := by
  induction steps generalizing c
  case nil => rfl
  case cons step steps hi =>
    have ⟨hs, hm⟩ := room_cons hr
    rw [ran_cons, hi hm, written_cons hs, List.flatten_cons, List.foldl_append, took_trail]
    congr 1
    rw [foldl_write, took_eq_write hs, foldl_write]
    rfl

section Log

variable {subject : Subject} {sink : Array Lens}

theorem ran_log (hr : Trail.start.Room steps) :
    ((start subject sink).ran steps).log.toList =
      ((start subject sink).written steps).flatten.filterMap Output.event? := by
  rw [ran_eq_write hr, foldl_write]
  simp [start]

theorem ran_tagged (hr : Trail.start.Room steps) :
    ∀ e ∈ ((start subject sink).ran steps).log.toList, e.Tagged := by
  have hw := written_writes (c := start subject sink) hr
  rw [ran_log hr]
  cases hd : subject.debug
  case true => exact Log.Event.forall₂_tagged (Step.Writes.forall₂_about hd hw)
  case false =>
    rw [Step.Writes.forall₂_silent hd hw]
    exact nofun

end Log

-- What holds of a collector that has taken some steps. It differs from a new one only by what each
-- of the steps has written, one after another.
structure Journal (subject : Subject) (sink : Array Lens) (steps : List Step) (c : Collector) :
    Prop where
  writes : List.Forall₂ (Step.Writes subject) steps ((start subject sink).written steps)
  runs : c =
    ((start subject sink).written steps).flatten.foldl write
      { start subject sink with trail := c.trail }
  about : subject.debug →
    List.Forall₂ (Log.Event.About subject) (steps.filterMap Step.noteworthy?) c.log.toList
  tagged : ∀ e ∈ c.log.toList, e.Tagged
  silent : subject.debug = false → c.log = #[]
  three : c.lenses.size = sink.size + 3 * (steps.filterMap Step.emitted?).length

theorem steps_journal (subject : Subject) (sink : Array Lens) (steps : List Step)
    (hg : steps.countP Step.opensGroup ≤ 2 ^ 32 - 2)
    (hu : steps.countP Step.isUnnamed ≤ 2 ^ 32 - 1) :
    ∃ c, (start subject sink).steps steps = some c ∧ Journal subject sink steps c := by
  have hr : (start subject sink).trail.Room steps := Trail.room_start hg hu
  have hw := written_writes hr
  have hc := ran_eq_write hr
  rw [← ran_trail] at hc
  refine ⟨(start subject sink).ran steps, steps_eq_some_iff.mpr ⟨hr, rfl⟩, hw, hc, ?_, ?_, ?_, ?_⟩
  case refine_1 =>
    intro hd
    rw [ran_log hr]
    exact Step.Writes.forall₂_about hd hw
  case refine_2 => exact ran_tagged hr
  case refine_3 =>
    intro hd
    rw [← Array.toList_eq_nil_iff, ran_log hr]
    exact Step.Writes.forall₂_silent hd hw
  case refine_4 =>
    rw [← Array.length_toList, ran_lenses, List.length_append, Entry.length_flatMap_lenses,
      ← Trail.entries_calls .start, List.length_map, Array.length_toList]
    rfl

theorem mixed_journal :
    ∃ c, (start ⟨"a_spec.rb", .probed true false, true⟩ #[]).steps Step.mixed = some c ∧
      List.Forall₂ (Log.Event.About ⟨"a_spec.rb", .probed true false, true⟩)
        (Step.mixed.filterMap Step.noteworthy?) c.log.toList ∧
      c.lenses.size = 9 ∧
      c.log.toList.map Log.Event.message =
        ["[CodeLens] describe \"Cart\" at a_spec.rb:1 -> bundle exec rspec a_spec.rb:1",
         "[CodeLens] it \"is \\\"cafe\\u\x7b301\x7d\\\"\\n\" at a_spec.rb:2 -> " ++
           "bundle exec rspec a_spec.rb:2",
         "[CodeLens] it \"<unnamed-1>\" at a_spec.rb:5 -> bundle exec rspec a_spec.rb:5",
         "[CodeLens] skipping context at a_spec.rb:6 (receiver: Some(\"Foo\"), block: true)"] := by
  have ⟨c, hs, hj⟩ :=
    steps_journal ⟨"a_spec.rb", .probed true false, true⟩ #[] Step.mixed (by decide) (by decide)
  refine ⟨c, hs, hj.about rfl, hj.three.trans (by decide), ?_⟩
  have hm := congrArg (Option.map fun c => c.log.toList.map Log.Event.message) hs
  exact Option.some.inj (hm.symm.trans (by decide +kernel))

end Collector

end TestLens
