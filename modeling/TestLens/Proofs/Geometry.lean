import Mathlib.Data.List.Forall2
import Mathlib.Data.List.Pairwise
import TestLens.Proofs.Extents
import TestLens.Proofs.Outline

namespace TestLens

-- The nodes are nested like their text, and their places can be told in words.
structure Document.Regular (d : Document) : Prop where
  nested : d.root.WellNested
  tellable : ∀ n ∈ d.root.preorder, d.Tellable n.start ∧ d.Tellable n.stop

namespace Site

def range (site : Site) : Range :=
  site.call.extent.location.range

-- The call of `j` is inside of that of `i`, in the tree and in the text, or it is behind it.
def Leads (i j : Site) : Prop :=
  (i.address <:+ j.address ∧ i.address ≠ j.address ∧ j.range.Within i.range) ∨
    i.range.stop ≤ j.range.start

end Site

def Range.Covers (d : Document) (n : Node) (r : Range) : Prop :=
  (r.start.line.toNat, r.start.character.toNat) = Text.locate d.text.toList n.start ∧
    (r.stop.line.toNat, r.stop.character.toNat) = Text.locate d.text.toList n.stop

-- A lens of a call stands where the call does, and its command names the line on which it starts.
structure Lens.PlacedAt (d : Document) (subject : Subject) (site : Site) (lens : Lens) : Prop where
  range_eq : lens.range = site.range
  covers : ∃ n, d.root.at? site.address = some n ∧ lens.range.Covers d n
  mirrors : lens.range = lens.arguments.location.range
  command : lens.arguments.command =
    (if lens.data.kind = .testInTerminal then subject.base.command else "bundle exec rspec") ++
      " " ++ (subject.path ++ ":" ++ toString (lens.arguments.location.startLine.toNat + 1))
  start_le_stop : lens.range.start ≤ lens.range.stop

namespace Document

variable {d : Document} {i j site : Site} {subject : Subject}

theorem site_range (h : site ∈ d.sites) :
    ∃ n, d.root.at? site.address = some n ∧ d.call? n = some site.call ∧
      site.range = ⟨d.position n.start, d.position n.stop⟩ := by
  have ⟨n, hn, hc⟩ := mem_sites_iff.mp h
  refine ⟨n, hn, hc, ?_⟩
  rw [Site.range, extent_of_call? hc, extent_range]

namespace Regular

theorem tellable_at (hd : d.Regular) {a : Address} {n : Node} (hn : d.root.at? a = some n) :
    d.Tellable n.start ∧ d.Tellable n.stop :=
  hd.tellable n (Node.mem_preorder_of_at? hn)

theorem within (hd : d.Regular) (hi : i ∈ d.sites) (hj : j ∈ d.sites)
    (h : i.address <:+ j.address) : j.range.Within i.range := by
  have ⟨m, hm, _, him⟩ := site_range hi
  have ⟨n, hn, _, hjn⟩ := site_range hj
  have ⟨m', hm', hl, hr⟩ := hd.nested.inside hn h
  cases hm.symm.trans hm'
  have ⟨hms, hmt⟩ := hd.tellable_at hm
  have ⟨hns, hnt⟩ := hd.tellable_at hn
  rw [him, hjn]
  exact ⟨position_mono hl hms hns, position_mono hr hnt hmt⟩

theorem leads (hd : d.Regular) (hi : i ∈ d.sites) (hj : j ∈ d.sites)
    (h : i.address.Precedes j.address) : i.Leads j := by
  cases h
  case inl h => exact .inl ⟨h.left, h.right, hd.within hi hj h.left⟩
  case inr h =>
    have ⟨_, _, _, hlt, hleft, hright⟩ := h
    have ⟨m, hm, _, him⟩ := site_range hi
    have ⟨n, hn, _, hjn⟩ := site_range hj
    have hb := hd.nested.behind hm hn hlt hleft hright
    refine .inr ?_
    rw [him, hjn]
    exact position_mono hb (hd.tellable_at hm).right (hd.tellable_at hn).left

theorem start_le_stop (hd : d.Regular) (h : site ∈ d.sites) :
    site.range.start ≤ site.range.stop := by
  have ⟨n, hn, _, hr⟩ := site_range h
  have ⟨hs, ht⟩ := hd.tellable_at hn
  rw [hr]
  exact position_mono (hd.nested.nests hn).left hs ht

theorem start_le_of_leads (hd : d.Regular) (hi : i ∈ d.sites) (h : i.Leads j) :
    i.range.start ≤ j.range.start := by
  cases h
  case inl h => exact h.right.right.left
  case inr h => exact Position.le_trans (hd.start_le_stop hi) h

-- The calls are listed in document order, so each leads those after it.
theorem sites_leads (hd : d.Regular) : d.sites.Pairwise Site.Leads := by
  have ho : (d.sites.map Site.address).Pairwise Address.Precedes :=
    d.root.addresses_ordered.sublist (d.sitesAt_sublist _)
  exact (List.pairwise_map.mp ho).imp_of_mem fun hi hj h => hd.leads hi hj h

theorem line_eq (hd : d.Regular) (h : site ∈ d.sites) :
    site.call.extent.location.startLine.toNat + 1 = site.call.line.toNat := by
  have ⟨n, hn, hc⟩ := mem_sites_iff.mp h
  have ht := (hd.tellable_at hn).left
  rw [line_of_call? hc ht, extent_of_call? hc]
  exact congrArg (· + 1) (lineAbove_succ ht.left)

theorem lens_placedAt (hd : d.Regular) (h : site ∈ d.sites) {lens : Lens}
    (hl : lens ∈ (d.entryOf site).lenses subject) : lens.PlacedAt d subject site := by
  obtain ⟨kind, _, rfl⟩ := List.mem_map.mp hl
  have ⟨n, hn, _, hr⟩ := site_range h
  have ⟨hs, ht⟩ := hd.tellable_at hn
  constructor
  case range_eq => rfl
  case covers =>
    have ⟨hsl, hsc⟩ := position_toNat hs
    have ⟨htl, htc⟩ := position_toNat ht
    refine ⟨n, hn, ?_⟩
    change site.range.Covers d n
    rw [hr]
    exact ⟨Prod.ext hsl hsc, Prod.ext htl htc⟩
  case mirrors => rfl
  case command =>
    change kind.commandText (subject.commands site.call) =
      (if kind = .testInTerminal then subject.base.command else "bundle exec rspec") ++ " " ++
        (subject.path ++ ":" ++ toString (site.call.extent.location.startLine.toNat + 1))
    rw [hd.line_eq h]
    cases kind <;> rfl
  case start_le_stop => exact hd.start_le_stop h

theorem triples_ordered (hd : d.Regular) (subject : Subject) :
    (d.triples subject).flatten.Pairwise fun a b => a.range.start ≤ b.range.start := by
  refine List.pairwise_flatten.mpr ⟨?_, ?_⟩
  case refine_1 =>
    intro triple ht
    have ⟨site, hs, ht⟩ := List.mem_map.mp ht
    have hs := List.mem_of_mem_filter hs
    refine List.pairwise_of_forall_mem_list fun a ha b hb => ?_
    rw [(hd.lens_placedAt hs (ht ▸ ha)).range_eq, (hd.lens_placedAt hs (ht ▸ hb)).range_eq]
    exact Position.le_refl _
  case refine_2 =>
    refine List.pairwise_map.mpr ((hd.sites_leads.filter _).imp_of_mem fun hi hj h a ha b hb => ?_)
    have hi := List.mem_of_mem_filter hi
    have hj := List.mem_of_mem_filter hj
    rw [(hd.lens_placedAt hi ha).range_eq, (hd.lens_placedAt hj hb).range_eq]
    exact hd.start_le_of_leads hi h

end Regular

theorem enclosing?_eq_some {a b : Address} (h : d.enclosing? a = some b) :
    b <:+ a ∧ ∃ call, d.callAt b = some call ∧ call.opensGroup := by
  induction a
  case nil => contradiction
  case cons i a hi =>
    rw [enclosing?] at h
    split at h
    case isTrue hc =>
      cases h
      cases hcall : d.callAt b
      case none => simp [hcall] at hc
      case some call => exact ⟨List.suffix_cons i b, call, rfl, by simpa [hcall] using hc⟩
    case isFalse =>
      obtain ⟨hs, hc⟩ := hi h
      exact ⟨hs.trans (List.suffix_cons i a), hc⟩

theorem entry_unique (hr : Trail.start.Room (d.events d.root)) {e e' : Entry} {id : GroupId}
    (he : e ∈ d.outline) (he' : e' ∈ d.outline) (hid : e.id = some id) (hid' : e'.id = some id) :
    e = e' := by
  have hn := Trail.entries_ids hr
  rw [entries_outline hr] at hn
  have hm : ((d.outline.filterMap Entry.id).map fun id => id.val.toNat).Nodup :=
    hn ▸ List.nodup_range'
  have hp := List.pairwise_filterMap.mp hm.of_map
  have : Std.Symm fun e e' : Entry =>
      ∀ id, e.id = some id → ∀ id', e'.id = some id' → id ≠ id' :=
    ⟨fun _ _ h id hid id' hid' => (h id' hid' id hid).symm⟩
  by_contra hne
  exact hp.forall he he' hne id hid id hid' rfl

theorem mem_triples_iff {lens : Lens} :
    lens ∈ (d.triples subject).flatten ↔
      ∃ site ∈ d.sites, site.emits ∧ lens ∈ (d.entryOf site).lenses subject := by
  simp [triples, and_assoc]

-- The group of a lens has lenses of its own, and the lens is inside of each of them.
theorem Regular.group_encloses (hd : d.Regular) (hr : Trail.start.Room (d.events d.root))
    {lens : Lens} (hl : lens ∈ (d.triples subject).flatten) {id : GroupId}
    (hg : lens.data.group = some id) :
    (∃ parent ∈ (d.triples subject).flatten, parent.data.id = some id) ∧
      ∀ parent ∈ (d.triples subject).flatten, parent.data.id = some id →
        lens.range.Within parent.range := by
  have ⟨site, hs, _, hl⟩ := mem_triples_iff.mp hl
  have hg : (d.entryOf site).group = some id :=
    ((d.entryOf site).lenses_shows subject).group lens hl ▸ hg
  have ⟨b, hb, hid⟩ := Option.map_eq_some_iff.mp hg
  have ⟨hsuffix, call, hc, ho⟩ := enclosing?_eq_some hb
  have hs' : ⟨b, call⟩ ∈ d.sites := mem_sites_iff.mpr (Option.bind_eq_some_iff.mp hc)
  have he' : Site.emits ⟨b, call⟩ := by simp [Site.emits, Call.emits, ho]
  have hid' : (d.entryOf ⟨b, call⟩).id = some id := by simp [entryOf, Site.opensGroup, ho, hid]
  have hm {s : Site} (h : s ∈ d.sites) (he : s.emits) : d.entryOf s ∈ d.outline :=
    List.mem_map_of_mem (List.mem_filter.mpr ⟨h, he⟩)
  constructor
  case left =>
    refine ⟨_, mem_triples_iff.mpr ⟨⟨b, call⟩, hs', he', List.mem_cons_self ..⟩, ?_⟩
    exact hid'
  case right =>
    intro parent hp hpid
    have ⟨s, hs'', he'', hp⟩ := mem_triples_iff.mp hp
    have hpid : (d.entryOf s).id = some id :=
      ((d.entryOf s).lenses_shows subject).id parent hp ▸ hpid
    have he := entry_unique hr (hm hs'' he'') (hm hs' he') hpid hid'
    have hcall : s.call = call := congrArg Entry.call he
    have hrange : s.range = Site.range ⟨b, call⟩ := by rw [Site.range, hcall, Site.range]
    rw [(hd.lens_placedAt hs hl).range_eq, (hd.lens_placedAt hs'' hp).range_eq, hrange]
    exact hd.within hs' hs hsuffix

structure LaidOut (d : Document) (subject : Subject) (triples : List (List Lens)) : Prop where
  placed : List.Forall₂
    (fun site triple =>
      triple.map (fun lens => lens.data.kind) = [.test, .testInTerminal, .debug] ∧
        ∀ lens ∈ triple, lens.PlacedAt d subject site)
    (d.sites.filter Site.emits) triples
  leads : (d.sites.filter Site.emits).Pairwise Site.Leads
  ordered : triples.flatten.Pairwise fun a b => a.range.start ≤ b.range.start
  enclosed : ∀ lens ∈ triples.flatten, ∀ id, lens.data.group = some id →
    (∃ parent ∈ triples.flatten, parent.data.id = some id) ∧
      ∀ parent ∈ triples.flatten, parent.data.id = some id → lens.range.Within parent.range

theorem collect_laid_out (d : Document) (subject : Subject) (sink : Array Lens) (hd : d.Regular) :
    ((d.collect subject sink).isSome ↔
        d.sites.countP Site.opensGroup ≤ 2 ^ 32 - 2 ∧
          d.sites.countP Site.isUnnamed ≤ 2 ^ 32 - 1) ∧
      ∀ c, d.collect subject sink = some c →
        ∃ triples, c.lenses.toList = sink.toList ++ triples.flatten ∧
          d.LaidOut subject triples := by
  refine ⟨collect_isSome_iff, fun c hc => ⟨d.triples subject, collect_lenses hc, ?_⟩⟩
  constructor
  case placed =>
    rw [triples, List.forall₂_map_right_iff, List.forall₂_same]
    intro site hs
    exact ⟨rfl, fun lens hl => hd.lens_placedAt (List.mem_of_mem_filter hs) hl⟩
  case leads => exact hd.sites_leads.filter _
  case ordered => exact hd.triples_ordered subject
  case enclosed =>
    exact fun lens hl id hg => hd.group_encloses (collect_eq_some_iff.mp hc).left hl hg

-- A group of three lines, with an example on the second one.
def lines : Document where
  text := "describe \x7b\n  it()\n\x7d"
  hasErrors := false
  root := ⟨.call, 0, 19, true, false, none,
    [⟨.identifier, 0, 8, true, false, some .method, []⟩,
     ⟨.other "block", 9, 19, true, false, some .block,
      [⟨.call, 13, 17, true, false, none,
        [⟨.identifier, 13, 15, true, false, some .method, []⟩]⟩]⟩]⟩

theorem lines_laid_out :
    lines.Regular ∧
      ∃ c triples, lines.collect ⟨"a_spec.rb", .probed true false, false⟩ #[] = some c ∧
        c.lenses.toList = triples.flatten ∧
        lines.LaidOut ⟨"a_spec.rb", .probed true false, false⟩ triples ∧
        (lines.sites.filter Site.emits).map Site.range =
          [⟨⟨0, 0⟩, ⟨2, 1⟩⟩, ⟨⟨1, 2⟩, ⟨1, 6⟩⟩] := by
  have hd : lines.Regular := ⟨by decide, by decide⟩
  have ⟨hs, h⟩ := collect_laid_out lines ⟨"a_spec.rb", .probed true false, false⟩ #[] hd
  have ⟨c, hc⟩ := Option.isSome_iff_exists.mp (hs.mpr (by decide))
  have ⟨triples, hl, hp⟩ := h c hc
  exact ⟨hd, c, triples, hc, hl, hp, by decide⟩

end Document

end TestLens
