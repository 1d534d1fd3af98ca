import TestLens.Proofs.Brackets
import TestLens.Proofs.Events

namespace TestLens.Step

variable {steps more : List Step} {methods : List String}

-- What is told of some steps when the methods end the walk: everything up to the first enter of one
-- of them.
def cut (methods : List String) (steps : List Step) : List Step × Ending :=
  (steps.take (steps.findIdx (enters methods) + 1),
    if steps.any (enters methods) then .stopped else .finished)

theorem cut_append_of_any (h : steps.any (enters methods)) :
    cut methods (steps ++ more) = cut methods steps := by
  have hl : steps.findIdx (enters methods) < steps.length :=
    List.findIdx_lt_length.mpr (List.any_eq_true.mp h)
  simp only [cut, List.findIdx_append, if_pos hl, List.take_append_of_le_length hl, List.any_append,
    h, Bool.true_or]

theorem cut_append_of_not_any (h : steps.any (enters methods) = false) (more : List Step) :
    cut methods (steps ++ more) = (steps ++ (cut methods more).1, (cut methods more).2) := by
  have hl : steps.findIdx (enters methods) = steps.length :=
    List.findIdx_eq_length_of_false (by simpa using h)
  simp only [cut, List.findIdx_append, hl, Nat.lt_irrefl, if_false, List.any_append, h,
    Bool.false_or]
  rw [Nat.add_comm _ steps.length, Nat.add_assoc, List.take_length_add_append]

theorem cut_of_not_any (h : steps.any (enters methods) = false) :
    cut methods steps = (steps, .finished) := by
  simpa [cut] using cut_append_of_not_any h []

theorem cut_nil (steps : List Step) : cut [] steps = (steps, .finished) := by
  refine cut_of_not_any (List.any_eq_false.mpr fun step _ => ?_)
  cases step <;> simp [enters, entered?, Call.isAmong]

theorem cut_enter {call : Call} (h : call.isAmong methods) :
    cut methods (.enter call :: steps) = ([.enter call], .stopped) := by
  have he : enters methods (.enter call) := h
  simp [cut, List.findIdx_cons, he]

theorem cut_stopped (h : (cut methods steps).2 = .stopped) :
    ∃ before call after, steps = before ++ .enter call :: after ∧
      before.any (enters methods) = false ∧ call.isAmong methods ∧
      (cut methods steps).1 = before ++ [.enter call] := by
  induction steps
  case nil => contradiction
  case cons step steps hi =>
    cases he : enters methods step
    case true =>
      cases step
      case leave call => contradiction
      case enter call => exact ⟨[], call, steps, rfl, rfl, he, congrArg Prod.fst (cut_enter he)⟩
    case false =>
      have hn : [step].any (enters methods) = false := by simpa using he
      have hc := cut_append_of_not_any hn steps
      rw [List.singleton_append] at hc
      rw [hc] at h
      have ⟨before, call, after, hs, hb, hm, ht⟩ := hi h
      refine ⟨step :: before, call, after, by rw [hs, List.cons_append], ?_, hm, ?_⟩
      case refine_1 => simpa [he] using hb
      case refine_2 => rw [hc, ht, List.singleton_append, List.cons_append]

-- For each enter, the calls that are open after it.
def ways (outer : List Call) : List Step → List (List Call)
  | [] => []
  | .enter call :: steps => (call :: outer) :: ways (call :: outer) steps
  | .leave _ :: steps => ways outer.tail steps

theorem ways_append (outer : List Call) (steps more : List Step) :
    ways outer (steps ++ more) = ways outer steps ++ ways (opened outer steps) more := by
  induction steps generalizing outer
  case nil => rfl
  case cons step steps hi =>
    cases step
    case enter call => exact congrArg _ (hi _)
    case leave call => exact hi _

theorem ways_heads (outer : List Call) (steps : List Step) :
    (ways outer steps).filterMap List.head? = steps.filterMap entered? := by
  induction steps generalizing outer
  case nil => rfl
  case cons step steps hi =>
    cases step
    case enter call => exact congrArg _ (hi _)
    case leave call => exact hi _

end TestLens.Step

namespace TestLens.Document

open Step

variable {d : Document} {start n : Node} {a : Address} {call : Call} {skip stop : List String}

-- The steps of a node without what is inside of the calls of some methods.
def eventsOutside (d : Document) (skip : List String) : Node → List Step
  | n@⟨_, _, _, _, _, _, children⟩ =>
    match d.call? n with
    | none => all children
    | some call =>
      .enter call :: ((if call.isAmong skip then [] else all children) ++ [.leave call])
where
  all : List Node → List Step
    | [] => []
    | c :: cs => d.eventsOutside skip c ++ all cs

theorem eventsOutside_eq_all (hc : d.call? n = none) :
    d.eventsOutside skip n = eventsOutside.all d skip n.children := by
  cases n
  rw [eventsOutside, hc]

theorem eventsOutside_of_call (hc : d.call? n = some call) :
    d.eventsOutside skip n =
      .enter call ::
        ((if call.isAmong skip then [] else eventsOutside.all d skip n.children) ++
          [.leave call]) := by
  cases n
  rw [eventsOutside, hc]

theorem eventsOutside_nil (n : Node) : d.eventsOutside [] n = d.events n := by
  induction n using Node.induction fun ns => eventsOutside.all d [] ns = events.eventsAll d ns
  case node n hi =>
    cases hc : d.call? n
    case none => rw [eventsOutside_eq_all hc, events_eq_eventsAll hc, hi]
    case some call =>
      rw [eventsOutside_of_call hc, events_of_call hc, hi]
      rfl
  case nil => rfl
  case cons n ns hn hi => rw [eventsOutside.all, events.eventsAll, hn, hi]

theorem events_bracketed (n : Node) : Bracketed (d.events n) := by
  induction n using Node.induction fun ns => Bracketed (events.eventsAll d ns)
  case node n hi =>
    cases hc : d.call? n
    case none =>
      rw [events_eq_eventsAll hc]
      exact hi
    case some call =>
      rw [events_of_call hc]
      exact .call call hi .nil
  case nil => exact .nil
  case cons n ns hn hi => exact hn.append hi

theorem sift_events (n : Node) (outer : List Call) (rest : List Step) :
    sift skip outer (d.events n ++ rest) =
      (if outer.any (Call.isAmong skip) then [] else d.eventsOutside skip n) ++
        sift skip outer rest := by
  induction n using Node.induction (fun ns => ∀ outer rest,
    sift skip outer (events.eventsAll d ns ++ rest) =
      (if outer.any (Call.isAmong skip) then [] else eventsOutside.all d skip ns) ++
        sift skip outer rest) generalizing outer rest
  case node n hi =>
    cases hc : d.call? n
    case none => rw [events_eq_eventsAll hc, eventsOutside_eq_all hc, hi]
    case some call =>
      rw [events_of_call hc, eventsOutside_of_call hc, List.cons_append, List.append_assoc, sift,
        hi, List.singleton_append, sift, List.tail_cons, List.any_cons]
      cases outer.any (Call.isAmong skip)
      case true => simp
      case false => cases call.isAmong skip <;> simp
  case nil => simp [events.eventsAll, eventsOutside.all]
  case cons n ns hn hi outer rest =>
    rw [events.eventsAll, eventsOutside.all, List.append_assoc, hn, hi]
    cases outer.any (Call.isAmong skip) <;> simp

theorem eventsOutside_eq_outside (n : Node) :
    d.eventsOutside skip n = outside skip (d.events n) := by
  have h : sift skip [] (d.events n ++ []) = _ := sift_events n [] []
  rw [outside_eq_sift (events_bracketed n).unmatched_eq]
  simpa [sift] using h.symm

def callBelow (d : Document) (start : Node) (a : Address) : Option Call :=
  (start.at? a).bind d.call?

-- The calls at an address and above it, innermost first.
def way (d : Document) (start : Node) : Address → List Call
  | [] => (d.callBelow start []).toList
  | i :: a => (d.callBelow start (i :: a)).toList ++ d.way start a

-- The calls above an address, innermost first.
def above (d : Document) (start : Node) : Address → List Call
  | [] => []
  | _ :: a => d.way start a

-- The addresses of the calls that a walk enters when it skips what is inside of the calls of some
-- methods.
def exposed (d : Document) (skip : List String) (start : Node) : List Address :=
  start.addresses.filter (isExposed d skip start)
where
  isExposed (d : Document) (skip : List String) (start : Node) (a : Address) : Bool :=
    (d.callBelow start a).isSome && !(d.above start a).any (Call.isAmong skip)

theorem way_eq (d : Document) (start : Node) (a : Address) :
    d.way start a = (d.callBelow start a).toList ++ d.above start a := by
  cases a
  case nil => simp [way, above]
  case cons => rfl

theorem callBelow_eq (hn : start.at? a = some n) : d.callBelow start a = d.call? n := by
  rw [callBelow, hn]
  rfl

theorem way_suffix {b : Address} (h : a <:+ b) : d.way start a <:+ d.way start b := by
  induction b
  case nil => exact List.suffix_nil.mp h ▸ List.suffix_refl _
  case cons j b hi =>
    cases List.suffix_cons_iff.mp h
    case inl h => exact h ▸ List.suffix_refl _
    case inr h => exact (hi h).trans (List.suffix_append _ _)

theorem way_suffix_above {b : Address} {j : Nat} (h : (j :: a) <:+ b) :
    d.way start a <:+ d.above start b := by
  cases b
  case nil => simp at h
  case cons k b =>
    cases List.suffix_cons_iff.mp h
    case inl h =>
      cases h
      exact List.suffix_refl _
    case inr h => exact way_suffix ((List.suffix_cons j a).trans h)

theorem filter_below_eq_nil (hc : d.callBelow start a = some call) (hs : call.isAmong skip) :
    (Node.addressesFrom.below a 0 n.children).filter (exposed.isExposed d skip start) = [] := by
  refine List.filter_eq_nil_iff.mpr fun b hb => ?_
  obtain ⟨j, _, hj⟩ := Node.suffix_of_mem_below hb
  have hm : call ∈ d.way start a := by simp [way_eq, hc]
  have : (d.above start b).any (Call.isAmong skip) :=
    List.any_eq_true.mpr ⟨call, (way_suffix_above hj).subset hm, hs⟩
  simp [exposed.isExposed, this]

-- The calls that are open when the walk comes to a node are those above it.
theorem ways_eventsOutside (rest : List Step) (hn : start.at? a = some n)
    (hv : (d.above start a).any (Call.isAmong skip) = false) :
    ways (d.above start a) (d.eventsOutside skip n ++ rest) =
      ((n.addressesFrom a).filter (exposed.isExposed d skip start)).map (d.way start) ++
        ways (d.above start a) rest := by
  induction a, n, hn using Node.induction_at (fun a i ns => ∀ rest,
    (d.way start a).any (Call.isAmong skip) = false →
    ways (d.way start a) (eventsOutside.all d skip ns ++ rest) =
      ((Node.addressesFrom.below a i ns).filter (exposed.isExposed d skip start)).map
          (d.way start) ++
        ways (d.way start a) rest) generalizing rest
  case node a n hn hi =>
    have hb := callBelow_eq (d := d) hn
    have hw := d.way_eq start a
    rw [Node.addressesFrom_eq, List.filter_cons]
    cases hc : d.call? n
    case none =>
      rw [hc] at hb
      have he : exposed.isExposed d skip start a = false := by simp [exposed.isExposed, hb]
      rw [hb, Option.toList_none, List.nil_append] at hw
      rw [he, eventsOutside_eq_all hc, ← hw]
      exact hi rest (hw ▸ hv)
    case some call =>
      rw [hc] at hb
      have he : exposed.isExposed d skip start a := by simp [exposed.isExposed, hb, hv]
      rw [hb, Option.toList_some, List.singleton_append] at hw
      rw [he, if_pos rfl, eventsOutside_of_call hc, List.cons_append, List.append_assoc, ways, ← hw]
      have hl : ways (d.way start a) ([.leave call] ++ rest) = ways (d.above start a) rest := by
        rw [hw]
        rfl
      cases hs : call.isAmong skip
      case true =>
        rw [filter_below_eq_nil hb hs, if_pos rfl, List.nil_append, hl]
        rfl
      case false =>
        have hv : (d.way start a).any (Call.isAmong skip) = false := by simp [hw, hs, hv]
        rw [if_neg Bool.false_ne_true, hi _ hv, hl, List.map_cons, List.cons_append]
  case nil => rfl
  case cons a i n ns _ hn hi rest hv =>
    have hn := hn (eventsOutside.all d skip ns ++ rest) hv
    rw [above] at hn
    rw [eventsOutside.all, Node.addressesFrom.below, List.append_assoc, hn, hi rest hv,
      List.filter_append, List.map_append, List.append_assoc]

theorem ways_start (d : Document) (skip : List String) (start : Node) :
    ways [] (d.eventsOutside skip start) = (d.exposed skip start).map (d.way start) := by
  have hs : start.at? [] = some start := rfl
  have h : ways [] (d.eventsOutside skip start ++ []) = _ := ways_eventsOutside [] hs rfl
  rw [List.append_nil] at h
  exact h.trans (List.append_nil _)

theorem head?_way (h : a ∈ d.exposed skip start) :
    (d.way start a).head? = d.callBelow start a := by
  have hc := (Bool.and_eq_true_iff.mp (List.mem_filter.mp h).right).left
  rw [way_eq]
  cases hb : d.callBelow start a
  case none => simp [hb] at hc
  case some => rfl

theorem eventsOutside_calls (d : Document) (skip : List String) (start : Node) :
    (d.eventsOutside skip start).filterMap entered? =
      (d.exposed skip start).filterMap (d.callBelow start) := by
  rw [← ways_heads [], ways_start, List.filterMap_map]
  exact List.filterMap_congr fun a h => head?_way h

-- When nothing is skipped, every call is exposed.
theorem events_calls_below (d : Document) (start : Node) :
    (d.events start).filterMap entered? = start.addresses.filterMap (d.callBelow start) := by
  rw [← eventsOutside_nil, eventsOutside_calls, exposed, List.filterMap_filter]
  refine List.filterMap_congr fun a _ => ?_
  have hn : (d.above start a).any (Call.isAmong []) = false := by simp [Call.isAmong]
  cases hb : d.callBelow start a <;> simp [exposed.isExposed, hb, hn]

def told (trace : Array Step) (part : List Step × Ending) : Array Step × Ending :=
  (trace ++ part.1, part.2)

theorem andThen_told (trace : Array Step) (steps more : List Step) :
    Walk.andThen (told trace (cut stop steps)) (fun trace => told trace (cut stop more)) =
      told trace (cut stop (steps ++ more)) := by
  cases h : steps.any (enters stop)
  case true =>
    have he : (cut stop steps).2 = .stopped := if_pos h
    rw [cut_append_of_any h, told, he]
    rfl
  case false =>
    rw [cut_of_not_any h, cut_append_of_not_any h]
    refine Prod.ext ?_ rfl
    apply Array.toList_inj.mp
    simp [told, Walk.andThen]

theorem told_cons {step : Step} (h : enters stop step = false) (trace : Array Step)
    (steps : List Step) :
    told trace (cut stop (step :: steps)) = told (trace.push step) (cut stop steps) := by
  rw [← List.singleton_append, ← andThen_told, cut_of_not_any (by simpa using h)]
  simp [told, Walk.andThen]

theorem told_leave (call : Call) (trace : Array Step) :
    told trace (cut stop [.leave call]) = (trace.push (.leave call), .finished) := by
  rw [told_cons rfl]
  simp [told, cut]

theorem visit_recorder (n : Node) (trace : Array Step) :
    Walk.visit d (.recorder skip stop) trace n =
      told trace (cut stop (d.eventsOutside skip n)) := by
  induction n using Node.induction (fun ns => ∀ trace,
    Walk.visit.visitAll d (.recorder skip stop) trace ns =
      told trace (cut stop (eventsOutside.all d skip ns))) generalizing trace
  case node n hi =>
    cases hc : d.call? n
    case none => rw [Walk.visit_eq_visitAll hc, eventsOutside_eq_all hc, hi]
    case some call =>
      rw [Walk.visit_of_call hc, eventsOutside_of_call hc]
      simp only [Visitor.recorder]
      by_cases hstop : call.method ∈ stop
      case pos =>
        rw [if_pos hstop, cut_enter (by simpa [Call.isAmong] using hstop)]
        simp [told]
      case neg =>
        rw [if_neg hstop, told_cons (by simpa [enters, entered?, Call.isAmong] using hstop)]
        by_cases hskip : call.method ∈ skip
        case pos =>
          have hs : call.isAmong skip := by simpa [Call.isAmong] using hskip
          rw [if_pos hskip, if_pos hs, List.nil_append, told_leave]
        case neg =>
          have hs : ¬ call.isAmong skip := by simpa [Call.isAmong] using hskip
          rw [if_neg hskip, if_neg hs, ← andThen_told, ← funext (told_leave call)]
          exact congrArg (Walk.andThen · _) (hi _)
  case nil => simp [Walk.visit.visitAll, eventsOutside.all, told, cut]
  case cons n ns hn hi trace =>
    rw [Walk.visit.visitAll, eventsOutside.all, hn, ← andThen_told]
    congr 1
    funext trace
    exact hi trace

theorem trace_eq_cut (d : Document) (skip stop : List String) (start : Node) :
    d.trace skip stop start = cut stop (d.eventsOutside skip start) := by
  rw [trace, walkFrom_eq_visit, visit_recorder]
  simp [told]

theorem opened_of_stopped (h : (cut stop (d.eventsOutside skip start)).2 = .stopped) :
    ∃ a, (d.exposed skip start).find? (fun a => (d.callBelow start a).any (Call.isAmong stop)) =
        some a ∧
      opened [] (cut stop (d.eventsOutside skip start)).1 = d.way start a := by
  -- A walk that is ended has entered the first exposed call of the methods last, with the calls
  -- above that one still open.
  obtain ⟨before, call, after, hs, hb, hm, ht⟩ := cut_stopped h
  have hw := d.ways_start skip start
  rw [hs, ways_append, ways] at hw
  obtain ⟨first, others, hx, hf, ho⟩ := List.map_eq_append_iff.mp hw.symm
  obtain ⟨a, last, rfl, ha, _⟩ := List.map_eq_cons_iff.mp ho
  have hc {b : Address} (h : b ∈ first ++ a :: last) :
      (d.way start b).head? = d.callBelow start b :=
    head?_way (hx ▸ h)
  refine ⟨a, List.find?_eq_some_iff_append.mpr ⟨?_, first, last, hx, ?_⟩, ?_⟩
  case refine_1 =>
    rw [← hc (by simp), ha]
    exact hm
  case refine_2 =>
    intro b hm
    cases hcall : d.callBelow start b
    case none => rfl
    case some c =>
      have he : c ∈ before.filterMap entered? := by
        rw [← ways_heads [], ← hf, List.filterMap_map]
        exact List.mem_filterMap.mpr ⟨b, hm, (hc (List.mem_append_left _ hm)).trans hcall⟩
      have ⟨step, hstep, he⟩ := List.mem_filterMap.mp he
      simpa [enters, he] using List.any_eq_false.mp hb step hstep
  case refine_3 => rw [ht, opened_append, ha, opened, opened]

-- Walks of one tree that stop, that skip and that do neither, compared with each other. The calls
-- that stay open in the end are the one that stopped the walk and those above it.
theorem trace_follows_verdicts (d : Document) (skip stop : List String) (start : Node) :
    d.trace skip stop start = cut stop (d.trace skip [] start).1 ∧
      (d.trace skip [] start).1 = outside skip (d.trace [] [] start).1 ∧
      Bracketed (d.trace [] [] start).1 ∧
      start.addresses.Nodup ∧
      (d.trace [] [] start).1.filterMap entered? =
        start.addresses.filterMap (d.callBelow start) ∧
      ((d.trace skip stop start).2 = .stopped →
        ∃ a, (d.exposed skip start).find?
              (fun a => (d.callBelow start a).any (Call.isAmong stop)) = some a ∧
          (unmatched (d.trace skip stop start).1).map (fun i => (d.trace skip stop start).1[i]?) =
            (d.way start a).map fun call => some (.enter call)) := by
  have hfull : (d.trace [] [] start).1 = d.events start := by
    rw [trace_eq_cut, cut_nil, eventsOutside_nil]
  have hskip : (d.trace skip [] start).1 = d.eventsOutside skip start := by
    rw [trace_eq_cut, cut_nil]
  rw [hfull, hskip, trace_eq_cut]
  refine ⟨rfl, eventsOutside_eq_outside start, events_bracketed start, start.addresses_nodup,
    d.events_calls_below start, ?_⟩
  intro h
  have ⟨a, ha, ho⟩ := opened_of_stopped h
  exact ⟨a, ha, by rw [map_unmatched, ho]⟩

theorem nested_trace_stops :
    (nested.trace ["context"] ["context"] nested.root).2 = .stopped ∧
      ∃ a, (nested.exposed ["context"] nested.root).find?
            (fun a => (nested.callBelow nested.root a).any (Call.isAmong ["context"])) = some a ∧
        (unmatched (nested.trace ["context"] ["context"] nested.root).1).map
            (fun i => (nested.trace ["context"] ["context"] nested.root).1[i]?) =
          (nested.way nested.root a).map fun call => some (.enter call) := by
  have hs : (nested.trace ["context"] ["context"] nested.root).2 = .stopped := by
    rw [trace_eq_cut]
    decide
  have ⟨_, _, _, _, _, h⟩ := trace_follows_verdicts nested ["context"] ["context"] nested.root
  exact ⟨hs, h hs⟩

end TestLens.Document
