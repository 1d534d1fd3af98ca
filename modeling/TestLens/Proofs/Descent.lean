import TestLens.Proofs.Containment

namespace TestLens

namespace Path

variable {dir mid file path : String} {rest more : List Component}

theorem leading_cons_of_ne_nil {p : List Char} (hp : p ≠ []) (ps : List (List Char)) :
    leading (p :: ps) = if p = ['.'] then some .current else none := by
  unfold leading
  split <;> simp_all

-- What stands at the start of a path depends on its first piece, and on whether it is the only one.
theorem leading_append_congr {ps qs rs : List (List Char)} (hp : ps ≠ []) (hq : qs ≠ [])
    (hr : rs ≠ []) : leading (ps ++ qs) = leading (ps ++ rs) := by
  obtain ⟨p, ps, rfl⟩ := List.ne_nil_iff_exists_cons.mp hp
  obtain ⟨q, qs, rfl⟩ := List.ne_nil_iff_exists_cons.mp hq
  obtain ⟨r, rs, rfl⟩ := List.ne_nil_iff_exists_cons.mp hr
  cases p
  case nil => cases ps <;> rfl
  case cons => simp only [List.cons_append, leading_cons_of_ne_nil (List.cons_ne_nil _ _)]

theorem leading_append_nil {ps : List (List Char)} (hp : ps ≠ []) (hn : ps ≠ [[]]) :
    leading (ps ++ [[]]) = leading ps := by
  obtain ⟨p, ps, rfl⟩ := List.ne_nil_iff_exists_cons.mp hp
  cases p
  case nil =>
    cases ps
    case nil => contradiction
    case cons => rfl
  case cons => simp only [List.cons_append, leading_cons_of_ne_nil (List.cons_ne_nil _ _)]

-- A slash at the end means nothing, unless it is all there is.
theorem components_append_slash (hd : dir ≠ "") : components (dir ++ "/") = components dir := by
  have hn : dir.toList.splitOn '/' ≠ [[]] := by
    intro h
    apply hd
    have hi : ['/'].intercalate (dir.toList.splitOn '/') = dir.toList := List.intercalate_splitOn '/'
    rw [h] at hi
    exact String.toList_eq_nil_iff.mp hi.symm
  have hp : (dir ++ "/").toList.splitOn '/' = dir.toList.splitOn '/' ++ [[]] := by
    rw [String.toList_append]
    exact List.splitOn_append_cons_self dir.toList []
  simp only [components, hp, leading_append_nil (List.splitOn_ne_nil '/' _) hn,
    List.filterMap_append]
  simp [Component.ofPiece]

def namesIn (path : String) : List String :=
  (path.toList.splitOn '/').map String.ofList

theorem intercalate_namesIn (path : String) : "/".intercalate (namesIn path) = path := by
  apply String.toList_injective
  rw [String.toList_intercalate, namesIn, List.map_map]
  have h : String.toList ∘ String.ofList = id := by
    funext cs
    simp
  rw [h, List.map_id]
  exact List.intercalate_splitOn '/'

theorem ofPiece_of_proper {piece : List Char} (h : Proper piece) :
    Component.ofPiece piece = some (.normal (String.ofList piece)) := by
  unfold Component.ofPiece
  split
  case h_1 => exact absurd rfl h.ne_nil
  case h_2 => exact absurd rfl h.ne_dot
  case h_3 => exact absurd rfl h.ne_dots
  case h_4 => rfl

theorem leading_of_proper {ps : List (List Char)} (h : ∀ p ∈ ps, Proper p) : leading ps = none := by
  cases ps
  case nil => rfl
  case cons p ps =>
    have hp := h p (List.mem_cons_self ..)
    rw [leading_cons_of_ne_nil hp.ne_nil, if_neg hp.ne_dot]

namespace Straight

theorem components_eq (h : Straight path) :
    components path = (namesIn path).map .normal := by
  have hm : (path.toList.splitOn '/').filterMap Component.ofPiece =
      (path.toList.splitOn '/').map fun p => .normal (String.ofList p) := by
    rw [← List.filterMap_eq_map]
    exact List.filterMap_congr fun p hp => ofPiece_of_proper (h.segments p hp)
  rw [components, leading_of_proper h.segments, hm, namesIn, List.map_map]
  rfl

theorem isAbsolute_eq (h : Straight path) : isAbsolute path = false := by
  simpa [isAbsolute] using h.starts

theorem components_append (h : Straight path) (dir : String) :
    components (dir ++ "/" ++ path) = components (dir ++ "/") ++ components path := by
  have hp : (dir ++ "/" ++ path).toList.splitOn '/' =
      dir.toList.splitOn '/' ++ path.toList.splitOn '/' := by
    simp [List.splitOn_append_cons_self]
  have hd : (dir ++ "/").toList.splitOn '/' = dir.toList.splitOn '/' ++ [[]] := by
    simp [List.splitOn_append_cons_self]
  have hc : leading (dir.toList.splitOn '/' ++ path.toList.splitOn '/') =
      leading (dir.toList.splitOn '/' ++ [[]]) :=
    leading_append_congr (by simp) (by simp) (by simp)
  simp only [components, hp, hd, leading_of_proper h.segments, hc, List.filterMap_append,
    Option.toList_none, List.nil_append, List.append_assoc]
  simp [Component.ofPiece]

-- Joining goes down from where the directory leads, however the directory is written.
theorem components_join (h : Straight path) (dir : String) :
    components (join dir path) = components dir ++ components path := by
  unfold join
  by_cases hd : dir = ""
  case pos => simp [hd, components, leading, Component.ofPiece]
  case neg =>
    rw [if_neg (by simpa [h.isAbsolute_eq] using hd)]
    split
    case isTrue hs =>
      obtain ⟨cs, hcs⟩ := List.getLast?_eq_some_iff.mp (beq_iff_eq.mp hs)
      have hdir : dir = String.ofList cs ++ "/" := by
        apply String.toList_injective
        simp [hcs]
      rw [hdir, h.components_append]
    case isFalse => rw [h.components_append, components_append_slash hd]

theorem contains_join (h : Straight path) (dir : String) :
    Contains dir (join dir path) ((namesIn path).map .normal) where
  split := by rw [h.components_join, h.components_eq]
  stays := by
    intro c hc
    obtain ⟨name, _, rfl⟩ := List.mem_map.mp hc
    exact .inr ⟨name, rfl⟩
  named := by
    have hs : namesIn path ≠ [] := by simp [namesIn]
    have ⟨name, hm⟩ := List.exists_mem_of_ne_nil _ hs
    exact ⟨name, List.mem_map_of_mem hm⟩

end Straight

theorem names_map_normal (ns : List String) : names (ns.map .normal) = ns := by
  induction ns
  case nil => rfl
  case cons n ns hi => simpa [names, Component.name?] using hi

theorem Contains.trans (h : Contains dir mid rest) (h' : Contains mid file more) :
    Contains dir file (rest ++ more) where
  split := by rw [h'.split, h.split, List.append_assoc]
  stays := List.forall_mem_append.mpr ⟨h.stays, h'.stays⟩
  named := by
    have ⟨name, hm⟩ := h.named
    exact ⟨name, List.mem_append_left _ hm⟩

end Path

namespace Workspace

open TestLens.Path

variable {root dir file path more : String}

theorem relative_join (h : Straight path) (dir : String) :
    relative dir (join dir path) = .ok path := by
  apply relative_eq_ok_iff.mpr
  refine ⟨_, h.contains_join dir, ?_⟩
  rw [names_map_normal, intercalate_namesIn]

theorem relative_trans (h : relative root dir = .ok path) (h' : relative dir file = .ok more) :
    relative root file = .ok (path ++ "/" ++ more) := by
  obtain ⟨rest, hc, rfl⟩ := relative_eq_ok_iff.mp h
  obtain ⟨rest', hc', rfl⟩ := relative_eq_ok_iff.mp h'
  apply relative_eq_ok_iff.mpr
  refine ⟨_, hc.trans hc', ?_⟩
  have hn : names (rest ++ rest') = names rest ++ names rest' := List.filterMap_append
  rw [hn, String.intercalate_append_of_ne_nil (names_ne_nil_iff.mpr hc.named)
    (names_ne_nil_iff.mpr hc'.named)]

-- Paths below a directory compose, and each of them leads down again.
theorem relative_descends (h : relative root dir = .ok path) :
    (∀ file more, relative dir file = .ok more →
        relative root file = .ok (path ++ "/" ++ more)) ∧
      relative root (join root path) = .ok path ∧
      relative "" path = .ok path := by
  obtain ⟨rest, hc, rfl⟩ := relative_eq_ok_iff.mp h
  refine ⟨fun file more => relative_trans h, relative_join hc.straight root, ?_⟩
  have := relative_join hc.straight ""
  rwa [join, if_pos (by simp)] at this

theorem models_descend :
    relative "./w//" "./w/spec/./models" = .ok "spec/models" ∧
      relative "./w/spec/./models" "./w//spec/models/user_spec.rb/" = .ok "user_spec.rb" ∧
      relative "./w//" "./w//spec/models/user_spec.rb/" = .ok "spec/models/user_spec.rb" ∧
      relative "./w//" (join "./w//" "spec/models") = .ok "spec/models" ∧
      relative "" "spec/models" = .ok "spec/models" := by
  have h : relative "./w//" "./w/spec/./models" = .ok "spec/models" := by decide
  have h' : relative "./w/spec/./models" "./w//spec/models/user_spec.rb/" = .ok "user_spec.rb" := by
    decide
  have hd := relative_descends h
  exact ⟨h, h', hd.left _ _ h', hd.right⟩

end Workspace

end TestLens
