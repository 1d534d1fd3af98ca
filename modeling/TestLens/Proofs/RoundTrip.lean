import Mathlib.Data.List.Nodup
import TestLens.Report

namespace TestLens

namespace Json

variable {α : Type} {encode : α → Json} {decode? : Json → Option α}

-- What was read comes back when it is written, so writing it is a normal form.
structure Settles (encode : α → Json) (decode? : Json → Option α) : Prop where
  stable : ∀ j x, decode? j = some x → decode? (encode x) = some x
  idempotent : ∀ j k, (decode? j).map encode = some k → (decode? k).map encode = some k

structure RoundTrips (encode : α → Json) (decode? : Json → Option α) : Prop extends
    Settles encode decode? where
  back : ∀ x, decode? (encode x) = some x

theorem Settles.of_stable (h : ∀ j x, decode? j = some x → decode? (encode x) = some x) :
    Settles encode decode? := by
  refine ⟨h, fun j k hk => ?_⟩
  obtain ⟨x, hx, rfl⟩ := Option.map_eq_some_iff.mp hk
  rw [h j x hx, Option.map_some]

theorem RoundTrips.of_back (h : ∀ x, decode? (encode x) = some x) : RoundTrips encode decode? :=
  ⟨.of_stable fun _ x _ => h x, h⟩

variable {key : String} {names : List String} {values : List Json}
  {members more : List (String × Json)}

theorem valuesFor_append : valuesFor key (members ++ more) =
    valuesFor key members ++ valuesFor key more :=
  List.filterMap_append

theorem valuesFor_of_not_mem (h : key ∉ members.map Prod.fst) : valuesFor key members = [] := by
  refine List.filterMap_eq_nil_iff.mpr fun m hm => ?_
  simp only [ite_eq_right_iff, reduceCtorEq, imp_false]
  exact fun he => h (he ▸ List.mem_map_of_mem hm)

theorem fst_of_mem_zip (h : key ∈ (names.zip values).map Prod.fst) : key ∈ names := by
  obtain ⟨m, hm, rfl⟩ := List.mem_map.mp h
  exact (List.of_mem_zip hm).left

theorem mapM_member?_zip (members : List (String × Json)) (values : List Json) (hn : names.Nodup)
    (hl : values.length ≤ names.length) (hm : ∀ name ∈ names, name ∉ members.map Prod.fst) :
    names.mapM (member? (members ++ names.zip values)) =
      some (values.map some ++ List.replicate (names.length - values.length) none) := by
  -- The names are looked up one after another. The induction needs the members of the names that
  -- were looked up before, which no later name finds.
  induction names generalizing members values
  case nil => simp_all
  case cons name names hi =>
    have ⟨hname, hn⟩ := List.nodup_cons.mp hn
    have ⟨hm, hms⟩ := List.forall_mem_cons.mp hm
    have hv : valuesFor name members = [] := valuesFor_of_not_mem hm
    cases values
    case nil =>
      have hi := hi members [] hn (Nat.zero_le _) hms
      simp_all [member?, List.replicate_succ]
    case cons value values =>
      have hz : valuesFor name (names.zip values) = [] :=
        valuesFor_of_not_mem fun h => hname (fst_of_mem_zip h)
      have hi := hi (members ++ [(name, value)]) values hn (by simpa using hl) (by grind)
      have hh : member? (members ++ (name, value) :: names.zip values) name = some (some value) := by
        have hc : valuesFor name ((name, value) :: names.zip values) = [value] := by
          simpa [valuesFor] using hz
        simp [member?, valuesFor_append, hv, hc]
      simp_all

-- A record that is written as an object under its names has the values as its slots.
theorem slots_zip {form : ListForm} (values : List Json) (hn : names.Nodup)
    (hl : values.length = names.length) :
    slots names form (.obj (names.zip values)) = some (values.map some) := by
  have h := mapM_member?_zip [] values hn (Nat.le_of_eq hl) (by simp)
  simpa [slots, hl] using h

theorem slots_zip_short {form : ListForm} (values : List Json) (hn : names.Nodup)
    (hl : values.length + 1 = names.length) :
    slots names form (.obj (names.zip values)) = some (values.map some ++ [none]) := by
  have h := mapM_member?_zip [] values hn (by omega) (by simp)
  simpa [slots, ← hl] using h

theorem listOf_map (h : ∀ x, decode? (encode x) = some x) (xs : List α) :
    listOf decode? (.arr (xs.map encode)) = some xs := by
  induction xs
  case nil => rfl
  case cons x xs hi => simp_all [listOf]

theorem optional_none : optional decode? none = some none :=
  rfl

theorem optional_some {j : Json} (h : j ≠ .null) :
    optional decode? (some j) = (decode? j).map some := by
  cases j
  case null => contradiction
  all_goals rfl

-- An optional field holds what it was given, unless that is null.
theorem optional_eq_self_iff {slot : Option Json} :
    optional some slot = some slot ↔ slot ≠ some .null := by
  obtain _ | j := slot
  case none => simp [optional]
  case some => cases j <;> simp [optional]

theorem optional_ne_null {slot value : Option Json} (h : optional some slot = some value) :
    value ≠ some .null := by
  rintro rfl
  obtain _ | j := slot
  case none => simp [optional] at h
  case some => cases j <;> simp [optional] at h

end Json

open Json (slots_zip slots_zip_short listOf_map optional_none optional_some optional_eq_self_iff
  optional_ne_null required RoundTrips Settles)

namespace GroupId

theorem encode_ne_null (id : GroupId) : id.encode ≠ .null :=
  nofun

theorem optional_encodeOption (id : Option GroupId) :
    Json.optional decode? (some (encodeOption id)) = some id := by
  cases id
  case none => rfl
  case some id => simp [encodeOption, optional_some id.encode_ne_null]

end GroupId

theorem slots_encodeCorners (startLine startColumn endLine endColumn : UInt32) :
    Json.slots cornerNames .exact (encodeCorners startLine startColumn endLine endColumn) =
      some ([startLine, startColumn, endLine, endColumn].map fun n => some (.word n)) :=
  slots_zip [.word startLine, .word startColumn, .word endLine, .word endColumn]
    (by decide) rfl

theorem Extent.decode?_encode (e : Extent) : decode? e.encode = some e := by
  simp [decode?, encode, slots_encodeCorners, cornersOfSlots?, required]

theorem Location.decode?_encode (l : Location) : decode? l.encode = some l := by
  simp [decode?, encode, slots_encodeCorners, cornersOfSlots?, required]

theorem Position.decode?_encode (p : Position) : decode? p.encode = some p := by
  have h : Json.slots fieldNames .exact p.encode = _ :=
    slots_zip [.word p.line, .word p.character] (by decide) rfl
  simp [decode?, h, ofSlots?, required]

theorem Range.decode?_encode (r : Range) : decode? r.encode = some r := by
  have h : Json.slots fieldNames .exact r.encode = _ :=
    slots_zip [r.start.encode, r.stop.encode] (by decide) rfl
  simp [decode?, h, ofSlots?, required, Position.decode?_encode]

theorem LensArguments.decode?_encode (a : LensArguments) : decode? a.encode = some a := by
  simp [decode?, encode, Location.decode?_encode]

namespace LensData

theorem decode?_encode (d : LensData) : decode? d.encode = some d := by
  obtain ⟨kind, group, id⟩ := d
  cases id
  case none =>
    have h : Json.slots fieldNames .lastOptional (encode ⟨kind, group, none⟩) = _ :=
      slots_zip_short [kind.encode, GroupId.encodeOption group] (by decide) rfl
    simp [decode?, h, ofSlots?, required, GroupId.optional_encodeOption, optional_none]
  case some id =>
    have h : Json.slots fieldNames .lastOptional (encode ⟨kind, group, some id⟩) = _ :=
      slots_zip [kind.encode, GroupId.encodeOption group, id.encode] (by decide) rfl
    simp [decode?, h, ofSlots?, required, GroupId.optional_encodeOption,
      optional_some id.encode_ne_null]

end LensData

theorem Lens.decode?_encode (lens : Lens) : decode? lens.encode = some lens := by
  have h : Json.slots fieldNames .exact lens.encode = _ :=
    slots_zip [.str lens.title, .str lens.action, lens.arguments.encode,
      lens.data.encode, lens.range.encode] (by decide) rfl
  simp [decode?, h, ofSlots?, required, LensArguments.decode?_encode, LensData.decode?_encode,
    Range.decode?_encode]

theorem FileReport.decode?_encode (r : FileReport) : decode? r.encode = some r := by
  have h : Json.slots fieldNames .exact r.encode = _ :=
    slots_zip [.str r.path, .arr (r.lenses.map Lens.encode)] (by decide) rfl
  simp [decode?, h, ofSlots?, required, listOf_map Lens.decode?_encode]

theorem LensReport.decode?_encode (r : LensReport) : decode? r.encode = some r := by
  have h : Json.slots fieldNames .exact r.encode = _ :=
    slots_zip [.str r.status, .str r.version, .arr (r.files.map FileReport.encode)]
      (by decide) rfl
  simp [decode?, h, ofSlots?, required, listOf_map FileReport.decode?_encode]

namespace ErrorInfo

theorem decode?_encode (e : ErrorInfo) :
    decode? e.encode = (Json.optional some e.details).map fun details => { e with details } := by
  obtain ⟨code, message, details⟩ := e
  cases details
  case none =>
    have h : Json.slots fieldNames .exact (encode ⟨code, message, none⟩) = _ :=
      slots_zip_short [.nat code.toNat, .str message] (by decide) rfl
    simp [decode?, h, ofSlots?, required, optional_none]
  case some details =>
    have h : Json.slots fieldNames .exact (encode ⟨code, message, some details⟩) = _ :=
      slots_zip [.nat code.toNat, .str message, details] (by decide) rfl
    cases hd : Json.optional some (some details)
    all_goals simp [decode?, h, ofSlots?, required, hd]

theorem decode?_encode_iff {e : ErrorInfo} :
    decode? e.encode = some e ↔ e.details ≠ some .null := by
  rw [decode?_encode, ← optional_eq_self_iff]
  cases e
  simp [Option.map_eq_some_iff]

theorem details_ne_null {j : Json} {e : ErrorInfo} (h : decode? j = some e) :
    e.details ≠ some .null := by
  have ⟨slots, _, h⟩ := Option.bind_eq_some_iff.mp h
  unfold ofSlots? at h
  split at h
  case _ =>
    simp only [Option.bind_eq_bind, Option.bind_eq_some_iff, Option.pure_def, Option.some.injEq] at h
    obtain ⟨code, _, message, _, details, hd, rfl⟩ := h
    exact optional_ne_null hd
  case _ => contradiction

end ErrorInfo

namespace ErrorReport

theorem decode?_encode_iff {r : ErrorReport} :
    decode? r.encode = some r ↔ r.error.details ≠ some .null := by
  have h : Json.slots fieldNames .exact r.encode = _ :=
    slots_zip [.str r.status, .str r.version, r.error.encode] (by decide) rfl
  rw [← ErrorInfo.decode?_encode_iff]
  cases r
  simp [decode?, h, ofSlots?, required, Option.bind_eq_some_iff]

theorem details_ne_null {j : Json} {r : ErrorReport} (h : decode? j = some r) :
    r.error.details ≠ some .null := by
  have ⟨slots, _, h⟩ := Option.bind_eq_some_iff.mp h
  unfold ofSlots? at h
  split at h
  case _ =>
    simp only [Option.bind_eq_bind, Option.bind_eq_some_iff, Option.pure_def, Option.some.injEq] at h
    obtain ⟨status, _, version, _, error, he, rfl⟩ := h
    have ⟨_, _, he⟩ := Option.bind_eq_some_iff.mp he
    exact ErrorInfo.details_ne_null he
  case _ => contradiction

end ErrorReport

theorem wire_round_trips :
    RoundTrips LensKind.encode LensKind.decode? ∧
      RoundTrips GroupId.encode GroupId.decode? ∧
      RoundTrips Extent.encode Extent.decode? ∧
      RoundTrips Location.encode Location.decode? ∧
      RoundTrips Position.encode Position.decode? ∧
      RoundTrips Range.encode Range.decode? ∧
      RoundTrips LensArguments.encode LensArguments.decode? ∧
      RoundTrips LensData.encode LensData.decode? ∧
      RoundTrips Lens.encode Lens.decode? ∧
      RoundTrips FileReport.encode FileReport.decode? ∧
      RoundTrips LensReport.encode LensReport.decode? ∧
      (∀ e : ErrorInfo, ErrorInfo.decode? e.encode = some e ↔ e.details ≠ some .null) ∧
      Settles ErrorInfo.encode ErrorInfo.decode? ∧
      (∀ r : ErrorReport, ErrorReport.decode? r.encode = some r ↔ r.error.details ≠ some .null) ∧
      Settles ErrorReport.encode ErrorReport.decode? :=
  ⟨.of_back LensKind.decode?_encode, .of_back GroupId.decode?_encode,
    .of_back Extent.decode?_encode, .of_back Location.decode?_encode,
    .of_back Position.decode?_encode, .of_back Range.decode?_encode,
    .of_back LensArguments.decode?_encode, .of_back LensData.decode?_encode,
    .of_back Lens.decode?_encode, .of_back FileReport.decode?_encode,
    .of_back LensReport.decode?_encode,
    fun _ => ErrorInfo.decode?_encode_iff,
    .of_stable fun _ _ h => ErrorInfo.decode?_encode_iff.mpr (ErrorInfo.details_ne_null h),
    fun _ => ErrorReport.decode?_encode_iff,
    .of_stable fun _ _ h => ErrorReport.decode?_encode_iff.mpr (ErrorReport.details_ne_null h)⟩

end TestLens
