import TestLens.Proofs.Traversal
import TestLens.Workspace

namespace TestLens

namespace Path

namespace Component

def name? : Component → Option String
  | .normal name => some name
  | _ => none

-- A component that does not lead out of a directory.
def Stays (c : Component) : Prop :=
  c = .current ∨ ∃ name, c = .normal name

theorem inside?_eq_some_iff (c : Component) (ns : List String) :
    c.inside? = some ns ↔ c.Stays ∧ c.name?.toList = ns := by
  cases c <;> simp [inside?, Stays, name?]

end Component

def names (cs : List Component) : List String :=
  cs.filterMap Component.name?

structure Contains (dir file : String) (rest : List Component) : Prop where
  split : components file = components dir ++ rest
  stays : ∀ c ∈ rest, c.Stays
  named : ∃ name, .normal name ∈ rest

variable {dir file path : String} {rest : List Component}

theorem mem_names_iff {name : String} : name ∈ names rest ↔ .normal name ∈ rest := by
  simp only [names, List.mem_filterMap]
  constructor
  case mp =>
    rintro ⟨c, hc, hn⟩
    cases c <;> cases hn
    exact hc
  case mpr => exact fun h => ⟨_, h, rfl⟩

theorem names_ne_nil_iff : names rest ≠ [] ↔ ∃ name, .normal name ∈ rest := by
  simp only [← mem_names_iff]
  constructor
  case mp => exact List.exists_mem_of_ne_nil _
  case mpr => exact fun ⟨name, h⟩ => List.ne_nil_of_mem h

theorem flatten_map_name? (rest : List Component) :
    (rest.map fun c => c.name?.toList).flatten = names rest := by
  rw [names, ← List.flatMap_def, List.filterMap_eq_flatMap_toList]

theorem isPrefixOf?_eq_some_iff {cs ds : List Component} :
    cs.isPrefixOf? ds = some rest ↔ ds = cs ++ rest := by
  induction cs generalizing ds
  case nil => simp [List.isPrefixOf?]
  case cons c cs hi =>
    cases ds
    case nil => simp [List.isPrefixOf?]
    case cons d ds =>
      by_cases hc : c = d
      case pos => simp [List.isPrefixOf?, hc, hi]
      case neg => simp [List.isPrefixOf?, hc, Ne.symm hc]

theorem within?_eq_some_iff {ns : List String} :
    within? dir file = some ns ↔ ∃ rest, Contains dir file rest ∧ ns = names rest := by
  simp only [within?, Option.bind_eq_bind, Option.bind_eq_some_iff, isPrefixOf?_eq_some_iff,
    mapM_eq_some_iff_forall Component.inside?_eq_some_iff]
  constructor
  case mp =>
    rintro ⟨rest, hf, nss, ⟨hs, rfl⟩, h⟩
    rw [flatten_map_name?] at h
    split at h
    case isTrue => contradiction
    case isFalse hn =>
      cases h
      exact ⟨rest, ⟨hf, hs, names_ne_nil_iff.mp (by simpa using hn)⟩, rfl⟩
  case mpr =>
    rintro ⟨rest, h, rfl⟩
    refine ⟨rest, h.split, _, ⟨h.stays, rfl⟩, ?_⟩
    rw [flatten_map_name?, if_neg (by simpa using names_ne_nil_iff.mpr h.named)]

-- A piece of a path that stands for a name.
structure Proper (piece : List Char) : Prop where
  ne_nil : piece ≠ []
  ne_dot : piece ≠ ['.']
  ne_dots : piece ≠ ['.', '.']

theorem no_slash_of_mem_splitOn {cs piece : List Char} (h : piece ∈ cs.splitOn '/') :
    '/' ∉ piece := by
  induction cs generalizing piece
  case nil =>
    rw [List.splitOn_nil, List.mem_singleton] at h
    exact h ▸ List.not_mem_nil
  case cons c cs hi =>
    obtain ⟨p, ps, hp⟩ := List.ne_nil_iff_exists_cons.mp (List.splitOn_ne_nil '/' cs)
    rw [List.splitOn_cons_eq_if_modifyHead] at h
    split at h
    case isTrue =>
      cases List.mem_cons.mp h
      case inl h => exact h ▸ List.not_mem_nil
      case inr h => exact hi h
    case isFalse hc =>
      rw [hp, List.modifyHead_cons] at h
      cases List.mem_cons.mp h
      case inl h =>
        have := hi (hp ▸ List.mem_cons_self ..)
        have hc : '/' ≠ c := fun he => hc (beq_iff_eq.mpr he.symm)
        simp [h, hc, this]
      case inr h => exact hi (hp ▸ List.mem_cons_of_mem _ h)

theorem ofPiece_eq_normal {piece : List Char} {name : String}
    (h : Component.ofPiece piece = some (.normal name)) : name.toList = piece ∧ Proper piece := by
  unfold Component.ofPiece at h
  split at h
  case h_4 hn hd hdd =>
    cases h
    exact ⟨by simp, ⟨hn, hd, hdd⟩⟩
  all_goals cases h

theorem leading_ne_normal (ps : List (List Char)) (name : String) :
    leading ps ≠ some (.normal name) := by
  unfold leading
  split <;> simp

theorem proper_of_mem_components {name : String} (h : .normal name ∈ components path) :
    Proper name.toList ∧ '/' ∉ name.toList := by
  cases List.mem_append.mp h
  case inl h => exact absurd (Option.mem_toList.mp h) (leading_ne_normal _ name)
  case inr h =>
    obtain ⟨piece, hm, hp⟩ := List.mem_filterMap.mp h
    obtain ⟨he, hp⟩ := ofPiece_eq_normal hp
    rw [he]
    exact ⟨hp, no_slash_of_mem_splitOn hm⟩

-- A path that goes straight down.
structure Straight (path : String) : Prop where
  ne_empty : path ≠ ""
  starts : path.toList.head? ≠ some '/'
  ends : path.toList.getLast? ≠ some '/'
  segments : ∀ segment ∈ path.toList.splitOn '/', Proper segment

-- A slash at either end would have an empty segment next to it.
theorem Straight.of_segments (h : ∀ segment ∈ path.toList.splitOn '/', Proper segment) :
    Straight path := by
  have hn : [] ∉ path.toList.splitOn '/' := fun hm => (h [] hm).ne_nil rfl
  constructor
  case ne_empty =>
    rintro rfl
    exact hn (by simp)
  case starts =>
    intro hs
    obtain ⟨cs, hcs⟩ := List.head?_eq_some_iff.mp hs
    apply hn
    rw [hcs, ← List.nil_append ('/' :: cs), List.splitOn_append_cons_self]
    simp
  case ends =>
    intro hs
    obtain ⟨cs, hcs⟩ := List.getLast?_eq_some_iff.mp hs
    apply hn
    rw [hcs, List.splitOn_append_cons_self]
    simp
  case segments => exact h

theorem Contains.straight (h : Contains dir file rest) :
    Straight ("/".intercalate (names rest)) := by
  have hp : ∀ name ∈ names rest, Proper name.toList ∧ '/' ∉ name.toList := by
    intro name hm
    have hm : .normal name ∈ components file := by
      rw [h.split]
      exact List.mem_append_right _ (mem_names_iff.mp hm)
    exact proper_of_mem_components hm
  have hs : ("/".intercalate (names rest)).toList.splitOn '/' = (names rest).map String.toList := by
    rw [String.toList_intercalate]
    apply List.splitOn_intercalate
    case hx => simpa using fun name hm => (hp name hm).right
    case hls => simpa using names_ne_nil_iff.mpr h.named
  apply Straight.of_segments
  rw [hs]
  simpa using fun name hm => (hp name hm).left

theorem leading_eq_root_iff {cs : List Char} :
    leading (cs.splitOn '/') = some .root ↔ cs.head? = some '/' := by
  cases cs
  case nil => simp [leading]
  case cons c cs =>
    obtain ⟨p, ps, hp⟩ := List.ne_nil_iff_exists_cons.mp (List.splitOn_ne_nil '/' cs)
    rw [List.splitOn_cons_eq_if_modifyHead, hp]
    by_cases hc : c = '/'
    case pos => simp [hc, leading]
    case neg =>
      rw [if_neg (by simpa using hc), List.modifyHead_cons]
      simp only [List.head?_cons, Option.some.injEq, hc, iff_false]
      unfold leading
      split <;> simp_all

theorem ofPiece_ne_root (piece : List Char) : Component.ofPiece piece ≠ some .root := by
  unfold Component.ofPiece
  split <;> simp

theorem root_mem_components_iff : .root ∈ components path ↔ isAbsolute path := by
  have hn : .root ∉ (path.toList.splitOn '/').filterMap Component.ofPiece := by
    intro h
    obtain ⟨piece, _, hp⟩ := List.mem_filterMap.mp h
    exact ofPiece_ne_root piece hp
  simp [components, isAbsolute, hn, leading_eq_root_iff]

-- From a relative path nothing leads to an absolute one, nor back.
theorem Contains.isAbsolute_eq (h : Contains dir file rest) : isAbsolute dir = isAbsolute file := by
  rw [Bool.eq_iff_iff, ← root_mem_components_iff, ← root_mem_components_iff, h.split,
    List.mem_append]
  constructor
  case mp => exact .inl
  case mpr =>
    intro hr
    cases hr
    case inl hr => exact hr
    case inr hr =>
      obtain hr | ⟨name, hr⟩ := h.stays _ hr
      all_goals contradiction

end Path

namespace Workspace

open TestLens.Path

variable {root file : String}

theorem relative_eq_ok_iff {s : String} :
    relative root file = .ok s ↔
      ∃ rest, Contains root file rest ∧ s = "/".intercalate (names rest) := by
  unfold relative
  split
  case h_1 ns hn =>
    obtain ⟨rest, h, rfl⟩ := within?_eq_some_iff.mp hn
    rw [Except.ok.injEq]
    constructor
    case mp => exact fun hs => ⟨rest, h, hs.symm⟩
    case mpr =>
      rintro ⟨rest', h', rfl⟩
      rw [List.append_cancel_left (h.split.symm.trans h'.split)]
  case h_2 hn =>
    simp only [reduceCtorEq, false_iff]
    rintro ⟨rest, h, _⟩
    have := within?_eq_some_iff.mpr ⟨rest, h, rfl⟩
    rw [hn] at this
    contradiction

theorem relative_eq_error_iff :
    relative root file = .error (.outsideWorkspace file root) ↔ ∀ rest, ¬ Contains root file rest := by
  constructor
  case mp =>
    intro he rest h
    have := relative_eq_ok_iff.mpr ⟨rest, h, rfl⟩
    rw [he] at this
    contradiction
  case mpr =>
    intro hn
    unfold relative
    split
    case h_1 ns hs =>
      obtain ⟨rest, h, _⟩ := within?_eq_some_iff.mp hs
      exact absurd h (hn rest)
    case h_2 => rfl

theorem toOption_relative (root file : String) :
    (relative root file).toOption = (within? root file).map fun ns => "/".intercalate ns := by
  unfold relative
  cases within? root file <;> rfl

-- A file is either inside, and then its path from the root is made of the components that are left,
-- or it is refused with both paths as they were given. How the paths are written makes no
-- difference.
theorem relative_exact (root file : String) :
    (∀ s, relative root file = .ok s ↔
        ∃ rest, Contains root file rest ∧ s = "/".intercalate (names rest)) ∧
      (∀ s, relative root file = .ok s → Straight s) ∧
      (relative root file = .error (.outsideWorkspace file root) ↔
        ∀ rest, ¬ Contains root file rest) ∧
      (isAbsolute root ≠ isAbsolute file → ∀ rest, ¬ Contains root file rest) ∧
      ∀ root' file', components root' = components root → components file' = components file →
        (relative root' file').toOption = (relative root file).toOption := by
  refine ⟨fun s => relative_eq_ok_iff, ?_, relative_eq_error_iff, ?_, ?_⟩
  case refine_1 =>
    intro s hs
    obtain ⟨rest, h, rfl⟩ := relative_eq_ok_iff.mp hs
    exact h.straight
  case refine_2 => exact fun hne rest h => hne h.isAbsolute_eq
  case refine_3 =>
    intro root' file' hr hf
    simp only [toOption_relative, within?, hr, hf]

example : relative "/w" "/w/./spec//a_spec.rb" = .ok "spec/a_spec.rb" := by decide

example : relative "/w" "/w/../a_spec.rb" = .error (.outsideWorkspace "/w/../a_spec.rb" "/w") := by
  decide

example : relative "/w" "/w/." = .error (.outsideWorkspace "/w/." "/w") := by decide

example : relative "/w" "/w-old/a_spec.rb" = .error (.outsideWorkspace "/w-old/a_spec.rb" "/w") := by
  decide

end Workspace

end TestLens
