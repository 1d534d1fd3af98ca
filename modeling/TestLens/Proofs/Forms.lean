import Mathlib.Logic.Relation
import TestLens.Proofs.RoundTrip
import TestLens.Proofs.Traversal

namespace TestLens.Json

structure FieldForm where
  name : String
  optional : Bool
  rewrites : Json → Json → Prop

def Rigid (_ _ : Json) : Prop :=
  False

inductive Each (rewrites : Json → Json → Prop) : Json → Json → Prop
  | item {before after : List Json} {j k : Json} (h : rewrites j k) :
    Each rewrites (.arr (before ++ j :: after)) (.arr (before ++ k :: after))

structure Layout where
  fields : List FieldForm
  form : ListForm
  nodup : (fields.map FieldForm.name).Nodup
  last : form = .lastOptional → ∃ fs f, fields = fs ++ [f] ∧ f.optional = true

def keys (members : List (String × Json)) : List String :=
  members.map Prod.fst

namespace Layout

def names (l : Layout) : List String :=
  l.fields.map FieldForm.name

-- No field is given twice, and those that have to be given are.
structure Complete (l : Layout) (members : List (String × Json)) : Prop where
  once : ∀ f ∈ l.fields, (keys members).count f.name ≤ 1
  given : ∀ f ∈ l.fields, f.optional = false → f.name ∈ keys members

-- The values of the fields in their order, with null for those that are missing.
def listed (l : Layout) (members : List (String × Json)) : List Json :=
  l.fields.map fun f => (members.lookup f.name).getD .null

-- One change of form, in a record or somewhere inside of it.
inductive Rewrites (l : Layout) : Json → Json → Prop
  | reorder {members members' : List (String × Json)} (h : members.Perm members') :
    Rewrites l (.obj members) (.obj members')
  | extra {members : List (String × Json)} {key : String} {j : Json} (h : key ∉ l.names) :
    Rewrites l (.obj members) (.obj ((key, j) :: members))
  | blank {members : List (String × Json)} {f : FieldForm} (hf : f ∈ l.fields) (ho : f.optional = true)
      (hm : f.name ∉ keys members) :
    Rewrites l (.obj ((f.name, .null) :: members)) (.obj members)
  | list {members : List (String × Json)} (h : l.Complete members) :
    Rewrites l (.obj members) (.arr (l.listed members))
  | short {items : List Json} (hf : l.form = .lastOptional)
      (hl : items.length + 1 = l.fields.length) :
    Rewrites l (.arr (items ++ [.null])) (.arr items)
  | member {members : List (String × Json)} {f : FieldForm} {j k : Json} (hf : f ∈ l.fields)
      (h : f.rewrites j k) :
    Rewrites l (.obj ((f.name, j) :: members)) (.obj ((f.name, k) :: members))
  | item {before after : List Json} {fs gs : List FieldForm} {f : FieldForm} {j k : Json}
      (hf : l.fields = fs ++ f :: gs) (hl : before.length = fs.length) (h : f.rewrites j k) :
    Rewrites l (.arr (before ++ j :: after)) (.arr (before ++ k :: after))

variable {α : Type}

-- A reader of records that does not notice the form of a record.
structure Indifferent (l : Layout) (decode? : Json → Option α) : Prop where
  reordered : ∀ members members' x, members.Perm members' →
    decode? (.obj members) = some x → decode? (.obj members') = some x
  extended : ∀ members more x, (∀ key ∈ keys more, key ∉ l.names) →
    decode? (.obj members) = some x → decode? (.obj (members ++ more)) = some x
  blanked : ∀ before after f x, f ∈ l.fields → f.optional = true →
    decode? (.obj (before ++ (f.name, .null) :: after)) = some x →
      decode? (.obj (before ++ after)) = some x
  listed : ∀ members x,
    decode? (.obj members) = some x → decode? (.arr (l.listed members)) = some x
  refused : ∀ items, items.length ≠ l.fields.length →
    ¬ (l.form = .lastOptional ∧ items.length + 1 = l.fields.length) → decode? (.arr items) = none
  shortened : ∀ items, l.form = .lastOptional → items.length + 1 = l.fields.length →
    decode? (.arr items) = decode? (.arr (items ++ [.null]))
  incomplete : ∀ members f, f ∈ l.fields → f.optional = false → f.name ∉ keys members →
    decode? (.obj members) = none
  mixed : ∀ j k, Relation.EqvGen l.Rewrites j k → decode? j = decode? k

-- A record is found again in every form that can be made of the written one.
def Recovers (l : Layout) (encode : α → Json) (decode? : Json → Option α) (x : α) : Prop :=
  ∀ j, Relation.EqvGen l.Rewrites (encode x) j → decode? j = some x

end Layout

def Keeps {α : Type} (rewrites : Json → Json → Prop) (decode? : Json → Option α) : Prop :=
  ∀ j k, rewrites j k → decode? j = decode? k

variable {α : Type} {rewrites : Json → Json → Prop} {decode? : Json → Option α}

theorem keeps_rigid (decode? : Json → Option α) : Keeps Rigid decode? :=
  nofun

theorem Keeps.each (h : Keeps rewrites decode?) : Keeps (Each rewrites) (listOf decode?) := by
  intro _ _ hr
  cases hr
  case item j k hr => simp only [listOf, List.mapM_append, List.mapM_cons, h j k hr]

namespace FieldForm

-- A slot that counts as missing.
def Blank (slot : Option Json) : Prop :=
  slot = none ∨ slot = some .null

-- Slots of a field that differ in form only.
inductive Alike (f : FieldForm) : Option Json → Option Json → Prop
  | same (slot : Option Json) : Alike f slot slot
  | blank {slot slot' : Option Json} (ho : f.optional = true) (h : Blank slot) (h' : Blank slot') :
    Alike f slot slot'
  | inside {j k : Json} (h : f.rewrites j k) : Alike f (some j) (some k)

structure Reads (f : FieldForm) (read : Option Json → Option α) : Prop where
  alike : ∀ {slot slot'}, f.Alike slot slot' → read slot = read slot'
  given : f.optional = false → read none = none

theorem required_reads (name : String) (h : Keeps rewrites decode?) :
    Reads ⟨name, false, rewrites⟩ (required decode?) where
  alike := by
    intro _ _ ha
    cases ha
    case same => rfl
    case blank ho _ _ => contradiction
    case inside j k hr => exact h j k hr
  given := fun _ => rfl

theorem optional_reads (name : String) (decode? : Json → Option α) :
    Reads ⟨name, true, Rigid⟩ (Json.optional decode?) where
  alike := by
    intro _ _ ha
    cases ha
    case same => rfl
    case blank h h' => obtain rfl | rfl := h <;> obtain rfl | rfl := h' <;> rfl
    case inside h => exact h.elim
  given := nofun

end FieldForm

inductive AlikeAll : List FieldForm → List (Option Json) → List (Option Json) → Prop
  | nil : AlikeAll [] [] []
  | cons {f : FieldForm} {fs : List FieldForm} {slot slot' : Option Json} {ss ss' : List (Option Json)}
      (h : f.Alike slot slot') (hs : AlikeAll fs ss ss') :
    AlikeAll (f :: fs) (slot :: ss) (slot' :: ss')

structure ReadsAll (fields : List FieldForm) (ofSlots? : List (Option Json) → Option α) : Prop where
  alike : ∀ {ss ss'}, AlikeAll fields ss ss' → ofSlots? ss = ofSlots? ss'
  given : ∀ {ss f}, ss.length = fields.length → (f, none) ∈ fields.zip ss → f.optional = false →
    ofSlots? ss = none

def readNext {β : Type} (read : Option Json → Option β)
    (others : β → List (Option Json) → Option α) : List (Option Json) → Option α
  | [] => none
  | slot :: ss => (read slot).bind fun x => others x ss

variable {fields fs gs : List FieldForm} {ss ss' : List (Option Json)} {key : String}
  {members members' : List (String × Json)}

namespace AlikeAll

theorem refl (h : ss.length = fields.length) : AlikeAll fields ss ss := by
  induction fields generalizing ss
  case nil =>
    cases List.eq_nil_of_length_eq_zero h
    exact .nil
  case cons f fs hi =>
    cases ss
    case nil => contradiction
    case cons slot ss => exact .cons (.same slot) (hi (Nat.succ.inj h))

theorem of_split {before after : List (Option Json)} {f : FieldForm} {slot slot' : Option Json}
    (h : f.Alike slot slot') (hb : before.length = fs.length) (ha : after.length = gs.length) :
    AlikeAll (fs ++ f :: gs) (before ++ slot :: after) (before ++ slot' :: after) := by
  induction fs generalizing before
  case nil =>
    cases List.eq_nil_of_length_eq_zero hb
    exact .cons h (.refl ha)
  case cons g fs hi =>
    cases before
    case nil => contradiction
    case cons b before => exact .cons (.same b) (hi (Nat.succ.inj hb))

theorem length_eq (h : AlikeAll fields ss ss') :
    ss.length = fields.length ∧ ss'.length = fields.length := by
  induction h
  case nil => exact ⟨rfl, rfl⟩
  case cons hi => simp [hi]

end AlikeAll

namespace ReadsAll

variable {ofSlots? ofSlots'? : List (Option Json) → Option α}

theorem nil (x : α) : ReadsAll [] fun _ => some x where
  alike := fun _ => rfl
  given := nofun

theorem cons {β : Type} {f : FieldForm} {read : Option Json → Option β}
    {others : β → List (Option Json) → Option α} (h : f.Reads read)
    (hs : ∀ x, ReadsAll fs (others x)) : ReadsAll (f :: fs) (readNext read others) where
  alike := by
    intro _ _ ha
    cases ha
    case cons slot slot' ss ss' ha has =>
      have ho : (fun x => others x ss) = fun x => others x ss' := funext fun x => (hs x).alike has
      rw [readNext, readNext, h.alike ha, ho]
  given := by
    intro ss g hl hm ho
    cases ss
    case nil => rfl
    case cons slot ss =>
      rw [readNext]
      cases hm
      case head => rw [h.given ho, Option.bind_none]
      case tail hm =>
        have hn : (fun x => others x ss) = fun _ => none :=
          funext fun x => (hs x).given (Nat.succ.inj hl) hm ho
        rw [hn, Option.bind_fun_none]

theorem congr (he : ∀ ss, ss.length = fields.length → ofSlots? ss = ofSlots'? ss)
    (h : ReadsAll fields ofSlots'?) : ReadsAll fields ofSlots? where
  alike := by
    intro ss ss' ha
    rw [he ss ha.length_eq.left, he ss' ha.length_eq.right, h.alike ha]
  given := fun hl hm ho => (he _ hl).trans (h.given hl hm ho)

end ReadsAll

theorem keys_perm (h : members.Perm members') : (keys members).Perm (keys members') :=
  h.map _

theorem length_valuesFor (key : String) (members : List (String × Json)) :
    (valuesFor key members).length = (keys members).count key := by
  induction members
  case nil => rfl
  case cons m ms hi =>
    by_cases h : m.1 = key
    case pos => simpa [valuesFor, keys, h] using hi
    case neg => simpa [valuesFor, keys, h] using hi

theorem lookup_eq_head? (key : String) (members : List (String × Json)) :
    members.lookup key = (valuesFor key members).head? := by
  induction members
  case nil => rfl
  case cons m ms hi =>
    obtain ⟨k, j⟩ := m
    by_cases h : key = k
    case pos => simp [valuesFor, h]
    case neg =>
      have hb : (key == k) = false := by simpa using h
      simpa [List.lookup_cons, hb, valuesFor, Ne.symm h] using hi

theorem member?_eq_some_iff {slot : Option Json} :
    member? members key = some slot ↔ valuesFor key members = slot.toList := by
  unfold member?
  split
  case h_1 he => cases slot <;> simp [he]
  case h_2 he => cases slot <;> simp [he]
  case h_3 hn hs =>
    cases slot
    case none => simpa using hn
    case some j => simpa using hs j

theorem member?_perm (h : members.Perm members') (key : String) :
    member? members key = member? members' key := by
  have hv : (valuesFor key members).Perm (valuesFor key members') := h.filterMap _
  apply Option.ext
  intro slot
  rw [member?_eq_some_iff, member?_eq_some_iff]
  have eq_of {xs ys : List Json} (hp : xs.Perm ys) (hx : xs = slot.toList) : ys = slot.toList := by
    subst hx
    cases slot
    case none => exact List.nil_perm.mp hp
    case some j => exact (List.singleton_perm.mp hp).symm
  exact ⟨eq_of hv, eq_of hv.symm⟩

theorem member?_cons_of_ne {k : String} {j : Json} (h : k ≠ key) :
    member? ((k, j) :: members) key = member? members key := by
  simp [member?, valuesFor, h]

theorem member?_of_not_mem (h : key ∉ keys members) : member? members key = some none :=
  member?_eq_some_iff.mpr (valuesFor_of_not_mem h)

theorem member?_cons_self (h : key ∉ keys members) (j : Json) :
    member? ((key, j) :: members) key = some (some j) := by
  have hv := valuesFor_of_not_mem h
  rw [member?_eq_some_iff]
  simpa [valuesFor] using hv

-- A field that stands twice is refused, whatever its values are.
theorem member?_cons_of_mem (h : key ∈ keys members) (j : Json) :
    member? ((key, j) :: members) key = none := by
  rw [Option.eq_none_iff_forall_ne_some]
  intro slot hs
  have hl := congrArg List.length (member?_eq_some_iff.mp hs)
  have hc : 0 < (keys members).count key := List.count_pos_iff.mpr h
  have hk : (keys ((key, j) :: members)).count key = (keys members).count key + 1 :=
    List.count_cons_self
  have := slot.length_toList_le
  rw [length_valuesFor, hk] at hl
  omega

namespace AlikeAll

theorem rel_cons {f : FieldForm} {slot slot' : Option (Option Json)}
    {found found' : Option (List (Option Json))} (h : Option.Rel f.Alike slot slot')
    (hs : Option.Rel (AlikeAll fs) found found') :
    Option.Rel (AlikeAll (f :: fs))
      (do let s ← slot; let ss ← found; return s :: ss)
      (do let s ← slot'; let ss ← found'; return s :: ss) := by
  cases h
  case none => exact .none
  case some h =>
    cases hs
    case none => exact .none
    case some hs => exact .some (.cons h hs)

-- Slots are found one by one, so they may be compared one by one.
theorem rel_mapM {find find' : String → Option (Option Json)}
    (h : ∀ f ∈ fields, Option.Rel f.Alike (find f.name) (find' f.name)) :
    Option.Rel (AlikeAll fields) ((fields.map FieldForm.name).mapM find)
      ((fields.map FieldForm.name).mapM find') := by
  induction fields
  case nil => exact .some .nil
  case cons f fs hi =>
    rw [List.map_cons, List.mapM_cons, List.mapM_cons]
    apply rel_cons
    case h => exact h f (List.mem_cons_self ..)
    case hs => exact hi fun f hm => h f (List.mem_cons_of_mem _ hm)

end AlikeAll

theorem FieldForm.rel_same (f : FieldForm) (slot : Option (Option Json)) :
    Option.Rel f.Alike slot slot := by
  cases slot
  case none => exact .none
  case some slot => exact .some (.same slot)

variable {ns : List String} {form : ListForm} {items : List Json}

theorem slots_arr (h : items.length = ns.length) :
    slots ns form (.arr items) = some (items.map some) :=
  if_pos h

theorem slots_arr_short (hf : form = .lastOptional) (h : items.length + 1 = ns.length) :
    slots ns form (.arr items) = some (items.map some ++ [none]) := by
  rw [slots, if_neg (by omega), if_pos ⟨hf, h⟩]

theorem slots_arr_refused (h : items.length ≠ ns.length)
    (hs : ¬ (form = .lastOptional ∧ items.length + 1 = ns.length)) :
    slots ns form (.arr items) = none := by
  rw [slots, if_neg h, if_neg hs]

theorem slots_arr_cases (ns : List String) (form : ListForm) (n : Nat) :
    (∀ items : List Json, items.length = n → slots ns form (.arr items) = none) ∨
      ∃ tail, n + tail.length = ns.length ∧
        ∀ items : List Json, items.length = n →
          slots ns form (.arr items) = some (items.map some ++ tail) := by
  -- Whether a list is read, and which slots are added to it, is a matter of its length.
  by_cases h : n = ns.length
  case pos => exact .inr ⟨[], h, fun items hl => by simp [slots_arr (hl.trans h)]⟩
  case neg =>
    by_cases hs : form = .lastOptional ∧ n + 1 = ns.length
    case pos =>
      exact .inr ⟨[none], hs.right, fun items hl => slots_arr_short hs.left (hl ▸ hs.right)⟩
    case neg => exact .inl fun items hl => slots_arr_refused (hl ▸ h) (hl ▸ hs)

theorem slots_obj_eq_some_iff :
    slots (fields.map FieldForm.name) form (.obj members) = some ss ↔
      List.Forall₂ (fun (f : FieldForm) slot => member? members f.name = some slot) fields ss := by
  rw [slots, mapM_eq_some_iff, List.forall₂_map_left_iff]

theorem exists_slot {f : FieldForm} (hf : f ∈ fields)
    (h : slots (fields.map FieldForm.name) form (.obj members) = some ss) :
    ∃ slot, (f, slot) ∈ fields.zip ss ∧ member? members f.name = some slot := by
  rw [slots_obj_eq_some_iff] at h
  induction h
  case nil => contradiction
  case cons g slot fs ss hg _ hi =>
    cases hf
    case head => exact ⟨slot, List.mem_cons_self .., hg⟩
    case tail hf =>
      have ⟨slot, hm, hs⟩ := hi hf
      exact ⟨slot, List.mem_cons_of_mem _ hm, hs⟩

namespace Layout

variable {l : Layout} {f g : FieldForm}

theorem length_names (l : Layout) : l.names.length = l.fields.length :=
  List.length_map ..

theorem eq_of_name_eq (hf : f ∈ l.fields) (hg : g ∈ l.fields) (h : f.name = g.name) : f = g :=
  List.inj_on_of_nodup_map l.nodup hf hg h

theorem rel_member? (hf : f ∈ l.fields)
    (h : Option.Rel f.Alike (member? members f.name) (member? members' f.name))
    (hn : ∀ key, f.name ≠ key → member? members key = member? members' key) :
    Option.Rel (AlikeAll l.fields) (slots l.names l.form (.obj members))
      (slots l.names l.form (.obj members')) := by
  apply AlikeAll.rel_mapM
  intro g hg
  by_cases he : f.name = g.name
  case pos => exact eq_of_name_eq hf hg he ▸ h
  case neg => exact hn g.name he ▸ g.rel_same _

theorem Complete.rel_listed (h : l.Complete members) (hf : f ∈ l.fields) :
    Option.Rel f.Alike (member? members f.name)
      (some (some ((members.lookup f.name).getD .null))) := by
  have hl : (valuesFor f.name members).length ≤ 1 := length_valuesFor f.name members ▸ h.once f hf
  have ⟨slot, hs⟩ : ∃ slot : Option Json, valuesFor f.name members = slot.toList := by
    match hv : valuesFor f.name members with
    | [] => exact ⟨none, rfl⟩
    | [j] => exact ⟨some j, rfl⟩
    | _ :: _ :: _ => simp [hv] at hl
  rw [member?_eq_some_iff.mpr hs, lookup_eq_head?, hs]
  cases slot
  case some j => exact .some (.same _)
  case none =>
    have ho : f.optional = true := by
      rw [← Bool.not_eq_false]
      intro ho
      have hm := h.given f hf ho
      have hc := length_valuesFor f.name members
      rw [hs] at hc
      exact absurd (List.count_pos_iff.mpr hm) (by simp [← hc])
    exact .some (.blank ho (.inl rfl) (.inr rfl))

-- A change of form leaves the slots alike.
theorem Rewrites.rel_slots {j k : Json} (h : l.Rewrites j k) :
    Option.Rel (AlikeAll l.fields) (slots l.names l.form j) (slots l.names l.form k) := by
  cases h
  case reorder h => exact AlikeAll.rel_mapM fun f _ => member?_perm h f.name ▸ f.rel_same _
  case extra members key j h =>
    apply AlikeAll.rel_mapM
    intro f hf
    have hn : key ≠ f.name := fun he => h (he ▸ List.mem_map_of_mem hf)
    exact member?_cons_of_ne hn ▸ f.rel_same _
  case blank members f hf ho hm =>
    apply rel_member? hf
    case h =>
      rw [member?_cons_self hm, member?_of_not_mem hm]
      exact .some (.blank ho (.inr rfl) (.inl rfl))
    case hn => exact fun key hk => member?_cons_of_ne hk
  case list members h =>
    have hl : (l.listed members).length = l.names.length := by simp [listed, names]
    have hm : (l.names.mapM fun name => some (some ((members.lookup name).getD .null))) =
        some ((l.listed members).map some) := by
      rw [listed, List.map_map, names, List.mapM_map]
      exact List.mapM_pure
    rw [slots_arr hl, ← hm]
    exact AlikeAll.rel_mapM fun f hf => h.rel_listed hf
  case short items hf hl =>
    have ⟨fs, f, hs, ho⟩ := l.last hf
    have hn := l.length_names
    rw [slots_arr (by simp [hn, hl]), slots_arr_short hf (by omega), hs, List.map_append]
    rw [hs, List.length_append] at hl
    have hb : (items.map some).length = fs.length := by simpa using hl
    exact .some (.of_split (.blank ho (.inr rfl) (.inl rfl)) hb rfl)
  case member members f j k hf h =>
    apply rel_member? hf
    case h =>
      by_cases hm : f.name ∈ keys members
      case pos =>
        rw [member?_cons_of_mem hm, member?_cons_of_mem hm]
        exact .none
      case neg =>
        rw [member?_cons_self hm, member?_cons_self hm]
        exact .some (.inside h)
    case hn => exact fun key hk => (member?_cons_of_ne hk).trans (member?_cons_of_ne hk).symm
  case item before after fs gs f j k hf hl h =>
    obtain hn | ⟨tail, ht, hs⟩ := slots_arr_cases l.names l.form (before.length + (after.length + 1))
    case inl =>
      rw [hn _ (by simp), hn _ (by simp)]
      exact .none
    case inr =>
      rw [hs _ (by simp), hs _ (by simp), hf]
      rw [length_names, hf] at ht
      have hb : (before.map some).length = fs.length := by simpa using hl
      have ha : (after.map some ++ tail).length = gs.length := by
        simp only [List.length_append, List.length_map, List.length_cons] at ht ⊢
        omega
      simp only [List.map_append, List.map_cons, List.append_assoc, List.cons_append]
      exact .some (.of_split (.inside h) hb ha)

variable {ofSlots? : List (Option Json) → Option α} {j k : Json} {x : α}

section

variable (hd : ∀ j, decode? j = (slots l.names l.form j).bind ofSlots?)
  (hr : ReadsAll l.fields ofSlots?)
include hd hr

theorem Rewrites.decode?_eq (h : l.Rewrites j k) : decode? j = decode? k := by
  rw [hd, hd]
  have h := h.rel_slots
  revert h
  generalize slots l.names l.form j = found, slots l.names l.form k = found'
  intro h
  cases h
  case none => rfl
  case some h => exact hr.alike h

theorem decode?_of_missing (hf : f ∈ l.fields) (ho : f.optional = false)
    (hm : f.name ∉ keys members) : decode? (.obj members) = none := by
  rw [hd]
  cases hs : slots l.names l.form (.obj members)
  case none => rfl
  case some ss =>
    have ⟨slot, hz, h⟩ := exists_slot hf hs
    rw [member?_of_not_mem hm, Option.some.injEq] at h
    exact hr.given (slots_obj_eq_some_iff.mp hs).length_eq.symm (h ▸ hz) ho

theorem complete_of_decode? (h : decode? (.obj members) = some x) : l.Complete members where
  once := by
    intro f hf
    rw [hd] at h
    have ⟨ss, hs, _⟩ := Option.bind_eq_some_iff.mp h
    have ⟨slot, _, hm⟩ := exists_slot hf hs
    rw [← length_valuesFor, member?_eq_some_iff.mp hm]
    exact slot.length_toList_le
  given := by
    intro f hf ho
    by_contra hm
    rw [decode?_of_missing hd hr hf ho hm] at h
    contradiction

-- A record is read independently of its form when its fields are.
theorem indifferent : l.Indifferent decode? where
  reordered := by
    intro members members' x hp h
    rw [← h]
    exact (Rewrites.decode?_eq hd hr (.reorder hp)).symm
  extended := by
    intro members more x hm h
    rw [← h]
    induction more
    case nil => rw [List.append_nil]
    case cons m more hi =>
      have ⟨hk, hm⟩ := List.forall_mem_cons.mp hm
      have hp : (members ++ m :: more).Perm (m :: (members ++ more)) := List.perm_middle
      rw [Rewrites.decode?_eq hd hr (.reorder hp), ← hi hm]
      exact (Rewrites.decode?_eq hd hr (.extra hk)).symm
  blanked := by
    intro before after f x hf ho h
    have hp : (before ++ (f.name, .null) :: after).Perm ((f.name, .null) :: (before ++ after)) :=
      List.perm_middle
    have hm : f.name ∉ keys (before ++ after) := by
      have hc : (f.name :: keys (before ++ after)).count f.name ≤ 1 :=
        (keys_perm hp).count_eq f.name ▸ (complete_of_decode? hd hr h).once f hf
      rw [List.count_cons_self] at hc
      exact List.count_eq_zero.mp (by omega)
    rw [← h, Rewrites.decode?_eq hd hr (.reorder hp)]
    exact (Rewrites.decode?_eq hd hr (.blank hf ho hm)).symm
  listed := by
    intro members x h
    rw [← h]
    exact (Rewrites.decode?_eq hd hr (.list (complete_of_decode? hd hr h))).symm
  refused := by
    intro items hn hs
    rw [← length_names] at hn hs
    rw [hd, slots_arr_refused hn hs, Option.bind_none]
  shortened := by
    intro items hf hl
    exact (Rewrites.decode?_eq hd hr (.short hf hl)).symm
  incomplete := fun members f => decode?_of_missing hd hr
  mixed := by
    intro j k h
    induction h
    case rel h => exact h.decode?_eq hd hr
    case refl => rfl
    case symm hi => exact hi.symm
    case trans hi hi' => exact hi.trans hi'

end

theorem Indifferent.keeps (h : l.Indifferent decode?) : Keeps l.Rewrites decode? :=
  fun j k hr => h.mixed j k (.rel _ _ hr)

theorem Indifferent.recovers {encode : α → Json} (h : l.Indifferent decode?)
    (hx : decode? (encode x) = some x) : l.Recovers encode decode? x := by
  intro j hj
  rw [← h.mixed _ _ hj, hx]

end Layout

end TestLens.Json

namespace TestLens

open Json (Layout Rigid Each Keeps ReadsAll keeps_rigid)
open Json.FieldForm (required_reads optional_reads)

def cornersLayout : Layout where
  fields := cornerNames.map fun name => ⟨name, false, Rigid⟩
  form := .exact
  nodup := by decide
  last := nofun

theorem cornersOfSlots?_reads {α : Type} (build : UInt32 → UInt32 → UInt32 → UInt32 → α) :
    ReadsAll cornersLayout.fields (cornersOfSlots? build) := by
  have hw (name : String) := required_reads name (keeps_rigid Json.toWord?)
  refine .congr ?_ (.cons (hw _) fun startLine => .cons (hw _) fun startColumn =>
    .cons (hw _) fun endLine => .cons (hw _) fun endColumn =>
      .nil (build startLine startColumn endLine endColumn))
  intro ss hl
  match ss, hl with
  | [_, _, _, _], _ => rfl

theorem Extent.decode?_indifferent : cornersLayout.Indifferent Extent.decode? :=
  Layout.indifferent (fun _ => rfl) (cornersOfSlots?_reads Extent.mk)

theorem Location.decode?_indifferent : cornersLayout.Indifferent Location.decode? :=
  Layout.indifferent (fun _ => rfl) (cornersOfSlots?_reads Location.mk)

namespace Position

def layout : Layout where
  fields := [⟨"line", false, Rigid⟩, ⟨"character", false, Rigid⟩]
  form := .exact
  nodup := by decide
  last := nofun

theorem decode?_indifferent : layout.Indifferent decode? := by
  have hw (name : String) := required_reads name (keeps_rigid Json.toWord?)
  refine Layout.indifferent (fun _ => rfl) (.congr ?_
    (.cons (hw _) fun line => .cons (hw _) fun character => .nil ⟨line, character⟩))
  intro ss hl
  match ss, hl with
  | [_, _], _ => rfl

end Position

namespace Range

def layout : Layout where
  fields := [⟨"start", false, Position.layout.Rewrites⟩, ⟨"end", false, Position.layout.Rewrites⟩]
  form := .exact
  nodup := by decide
  last := nofun

theorem decode?_indifferent : layout.Indifferent decode? := by
  have hp (name : String) := required_reads name Position.decode?_indifferent.keeps
  refine Layout.indifferent (fun _ => rfl) (.congr ?_
    (.cons (hp _) fun start => .cons (hp _) fun stop => .nil ⟨start, stop⟩))
  intro ss hl
  match ss, hl with
  | [_, _], _ => rfl

example : decode? (.arr
    [.obj [("character", .nat 2), ("offset", .null), ("line", .nat 1)], .arr [.nat 3, .nat 4]]) =
      some ⟨⟨1, 2⟩, ⟨3, 4⟩⟩ := by
  decide

end Range

namespace LensArguments

-- Arguments are always a list. Only the place among them may be written anew.
inductive Rewrites : Json → Json → Prop
  | location {path name command j k : Json} (h : cornersLayout.Rewrites j k) :
    Rewrites (.arr [path, name, command, j]) (.arr [path, name, command, k])

theorem decode?_keeps : Keeps Rewrites decode? := by
  intro _ _ h
  cases h
  case location j k h => simp only [decode?, Location.decode?_indifferent.keeps j k h]

end LensArguments

namespace LensData

def layout : Layout where
  fields := [⟨"type", false, Rigid⟩, ⟨"group_id", true, Rigid⟩, ⟨"id", true, Rigid⟩]
  form := .lastOptional
  nodup := by decide
  last := fun _ => ⟨[⟨"type", false, Rigid⟩, ⟨"group_id", true, Rigid⟩], _, rfl, rfl⟩

theorem decode?_indifferent : layout.Indifferent decode? := by
  refine Layout.indifferent (fun _ => rfl) (.congr ?_
    (.cons (required_reads _ (keeps_rigid LensKind.decode?)) fun kind =>
      .cons (optional_reads _ GroupId.decode?) fun group =>
        .cons (optional_reads _ GroupId.decode?) fun id => .nil ⟨kind, group, id⟩))
  intro ss hl
  match ss, hl with
  | [_, _, _], _ => rfl

end LensData

namespace Lens

def layout : Layout where
  fields := [⟨"title", false, Rigid⟩, ⟨"command", false, Rigid⟩,
    ⟨"arguments", false, LensArguments.Rewrites⟩, ⟨"data", false, LensData.layout.Rewrites⟩,
    ⟨"range", false, Range.layout.Rewrites⟩]
  form := .exact
  nodup := by decide
  last := nofun

theorem decode?_indifferent : layout.Indifferent decode? := by
  have ht (name : String) := required_reads name (keeps_rigid Json.toText?)
  refine Layout.indifferent (fun _ => rfl) (.congr ?_
    (.cons (ht _) fun title => .cons (ht _) fun action =>
      .cons (required_reads _ LensArguments.decode?_keeps) fun arguments =>
        .cons (required_reads _ LensData.decode?_indifferent.keeps) fun data =>
          .cons (required_reads _ Range.decode?_indifferent.keeps) fun range =>
            .nil ⟨title, action, arguments, data, range⟩))
  intro ss hl
  match ss, hl with
  | [_, _, _, _, _], _ => rfl

end Lens

namespace FileReport

def layout : Layout where
  fields := [⟨"path", false, Rigid⟩, ⟨"lenses", false, Each Lens.layout.Rewrites⟩]
  form := .exact
  nodup := by decide
  last := nofun

theorem decode?_indifferent : layout.Indifferent decode? := by
  refine Layout.indifferent (fun _ => rfl) (.congr ?_
    (.cons (required_reads _ (keeps_rigid Json.toText?)) fun path =>
      .cons (required_reads _ Lens.decode?_indifferent.keeps.each) fun lenses =>
        .nil ⟨path, lenses⟩))
  intro ss hl
  match ss, hl with
  | [_, _], _ => rfl

end FileReport

namespace LensReport

def layout : Layout where
  fields := [⟨"status", false, Rigid⟩, ⟨"schema_version", false, Rigid⟩,
    ⟨"files", false, Each FileReport.layout.Rewrites⟩]
  form := .exact
  nodup := by decide
  last := nofun

theorem decode?_indifferent : layout.Indifferent decode? := by
  have ht (name : String) := required_reads name (keeps_rigid Json.toText?)
  refine Layout.indifferent (fun _ => rfl) (.congr ?_
    (.cons (ht _) fun status => .cons (ht _) fun version =>
      .cons (required_reads _ FileReport.decode?_indifferent.keeps.each) fun files =>
        .nil ⟨status, version, files⟩))
  intro ss hl
  match ss, hl with
  | [_, _, _], _ => rfl

end LensReport

namespace ErrorInfo

-- Details are kept as they are written, so they have one form only.
def layout : Layout where
  fields := [⟨"code", false, Rigid⟩, ⟨"message", false, Rigid⟩, ⟨"details", true, Rigid⟩]
  form := .exact
  nodup := by decide
  last := nofun

theorem decode?_indifferent : layout.Indifferent decode? := by
  refine Layout.indifferent (fun _ => rfl) (.congr ?_
    (.cons (required_reads _ (keeps_rigid Json.toByte?)) fun code =>
      .cons (required_reads _ (keeps_rigid Json.toText?)) fun message =>
        .cons (optional_reads _ some) fun details => .nil ⟨code, message, details⟩))
  intro ss hl
  match ss, hl with
  | [_, _, _], _ => rfl

end ErrorInfo

namespace ErrorReport

def layout : Layout where
  fields := [⟨"status", false, Rigid⟩, ⟨"schema_version", false, Rigid⟩,
    ⟨"error", false, ErrorInfo.layout.Rewrites⟩]
  form := .exact
  nodup := by decide
  last := nofun

theorem decode?_indifferent : layout.Indifferent decode? := by
  have ht (name : String) := required_reads name (keeps_rigid Json.toText?)
  refine Layout.indifferent (fun _ => rfl) (.congr ?_
    (.cons (ht _) fun status => .cons (ht _) fun version =>
      .cons (required_reads _ ErrorInfo.decode?_indifferent.keeps) fun error =>
        .nil ⟨status, version, error⟩))
  intro ss hl
  match ss, hl with
  | [_, _, _], _ => rfl

end ErrorReport

theorem wire_indifferent :
    cornersLayout.Indifferent Extent.decode? ∧
      cornersLayout.Indifferent Location.decode? ∧
      Position.layout.Indifferent Position.decode? ∧
      Range.layout.Indifferent Range.decode? ∧
      LensData.layout.Indifferent LensData.decode? ∧
      Lens.layout.Indifferent Lens.decode? ∧
      FileReport.layout.Indifferent FileReport.decode? ∧
      LensReport.layout.Indifferent LensReport.decode? ∧
      ErrorInfo.layout.Indifferent ErrorInfo.decode? ∧
      ErrorReport.layout.Indifferent ErrorReport.decode? ∧
      (∀ e : Extent, cornersLayout.Recovers Extent.encode Extent.decode? e) ∧
      (∀ l : Location, cornersLayout.Recovers Location.encode Location.decode? l) ∧
      (∀ p : Position, Position.layout.Recovers Position.encode Position.decode? p) ∧
      (∀ r : Range, Range.layout.Recovers Range.encode Range.decode? r) ∧
      (∀ x : LensData, LensData.layout.Recovers LensData.encode LensData.decode? x) ∧
      (∀ lens : Lens, Lens.layout.Recovers Lens.encode Lens.decode? lens) ∧
      (∀ r : FileReport, FileReport.layout.Recovers FileReport.encode FileReport.decode? r) ∧
      (∀ r : LensReport, LensReport.layout.Recovers LensReport.encode LensReport.decode? r) ∧
      (∀ e : ErrorInfo, e.details ≠ some .null →
        ErrorInfo.layout.Recovers ErrorInfo.encode ErrorInfo.decode? e) ∧
      (∀ r : ErrorReport, r.error.details ≠ some .null →
        ErrorReport.layout.Recovers ErrorReport.encode ErrorReport.decode? r) :=
  ⟨Extent.decode?_indifferent, Location.decode?_indifferent, Position.decode?_indifferent,
    Range.decode?_indifferent, LensData.decode?_indifferent, Lens.decode?_indifferent,
    FileReport.decode?_indifferent, LensReport.decode?_indifferent,
    ErrorInfo.decode?_indifferent, ErrorReport.decode?_indifferent,
    fun e => Extent.decode?_indifferent.recovers e.decode?_encode,
    fun l => Location.decode?_indifferent.recovers l.decode?_encode,
    fun p => Position.decode?_indifferent.recovers p.decode?_encode,
    fun r => Range.decode?_indifferent.recovers r.decode?_encode,
    fun x => LensData.decode?_indifferent.recovers x.decode?_encode,
    fun lens => Lens.decode?_indifferent.recovers lens.decode?_encode,
    fun r => FileReport.decode?_indifferent.recovers r.decode?_encode,
    fun r => LensReport.decode?_indifferent.recovers r.decode?_encode,
    fun _ h => ErrorInfo.decode?_indifferent.recovers (ErrorInfo.decode?_encode_iff.mpr h),
    fun _ h => ErrorReport.decode?_indifferent.recovers (ErrorReport.decode?_encode_iff.mpr h)⟩

end TestLens
