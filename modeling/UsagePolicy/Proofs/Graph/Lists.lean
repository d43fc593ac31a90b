import Mathlib.Data.List.Perm.Subperm
import UsagePolicy.Proofs.Graph.Agreement
/-!
# Lists that are written and read

A list is followed from cell to cell. Each cell is visited at most once, so the walk ends on every
graph, and it gives at most one item for each cell. A list that is written into new cells is read as
it was written: old lists do not lead into the new cells, and of these each has one item and one
next cell.
-/

namespace UsagePolicy

namespace Vocabulary

theorem first_mem_linking : first ∈ linking := by
  decide

theorem rest_mem_linking : rest ∈ linking := by
  decide

theorem first_ne_rest : first ≠ rest := by
  decide

end Vocabulary

namespace Graph

variable {g : Graph} {s p cell cursor : String} {visited unvisited cells items : List String}

/-! ## Walks -/

/-- A walk from a cursor on and the cells that it visits, given those visited before. It stops at
`nil`, at a visited cell and at a node without an item, and ends behind a cell without a next
one. -/
inductive Walk (g : Graph) : (visited : List String) → (cursor : String) → List String → Prop
  | stop {visited : List String} {cursor : String}
      (hstop : cursor = Vocabulary.nil ∨ cursor ∈ visited ∨
        g.firstObject? cursor Vocabulary.first = none) : Walk g visited cursor []
  | last {visited : List String} {cursor item : String} (hnil : cursor ≠ Vocabulary.nil)
      (hnew : cursor ∉ visited) (hitem : g.firstObject? cursor Vocabulary.first = some item)
      (hnext : g.firstObject? cursor Vocabulary.rest = none) : Walk g visited cursor [cursor]
  | step {visited : List String} {cursor item next : String} {cells : List String}
      (hnil : cursor ≠ Vocabulary.nil) (hnew : cursor ∉ visited)
      (hitem : g.firstObject? cursor Vocabulary.first = some item)
      (hnext : g.firstObject? cursor Vocabulary.rest = some next)
      (hwalk : Walk g (cursor :: visited) next cells) : Walk g visited cursor (cursor :: cells)

namespace Walk

theorem unique {cells' : List String} (h : g.Walk visited cursor cells)
    (h' : g.Walk visited cursor cells') : cells' = cells := by
  induction h generalizing cells' with
  | stop hstop => cases h' <;> simp_all
  | last hnil hnew hitem hnext => cases h' <;> simp_all
  | step hnil hnew hitem hnext _ ih =>
      cases h' with
      | stop hstop => simp_all
      | last _ _ _ hnext' => simp_all
      | step _ _ _ hnext' hwalk' =>
          cases hnext.symm.trans hnext'
          rw [ih hwalk']

theorem notMem_visited (h : g.Walk visited cursor cells) : ∀ c ∈ cells, c ∉ visited := by
  induction h with
  | stop => exact List.forall_mem_nil _
  | last _ hnew => exact List.forall_mem_singleton.2 hnew
  | step _ hnew _ _ _ ih =>
      exact List.forall_mem_cons.2 ⟨hnew, fun c hc hmem => ih c hc (List.mem_cons_of_mem _ hmem)⟩

theorem nodup (h : g.Walk visited cursor cells) : cells.Nodup := by
  induction h with
  | stop => exact List.nodup_nil
  | last => exact List.nodup_singleton _
  | step _ _ _ _ hwalk ih =>
      exact List.nodup_cons.2 ⟨fun hmem => hwalk.notMem_visited _ hmem List.mem_cons_self, ih⟩

theorem subset_cells (h : g.Walk visited cursor cells) : cells ⊆ g.cells := by
  have hcell : ∀ {node item : String}, g.firstObject? node Vocabulary.first = some item →
      node ∈ g.cells := by
    intro node item hitem
    rw [mem_cells, hitem]
    rfl
  induction h with
  | stop => exact List.nil_subset _
  | last _ _ hitem => exact List.cons_subset.2 ⟨hcell hitem, List.nil_subset _⟩
  | step _ _ hitem _ _ ih => exact List.cons_subset.2 ⟨hcell hitem, ih⟩

end Walk

/-- The cells that are left to visit are those that were not visited. -/
theorem exists_walk_follow (h : ∀ c, c ∈ unvisited ↔ c ∈ g.cells ∧ c ∉ visited) :
    ∃ cells, g.Walk visited cursor cells ∧
      (g.follow unvisited cursor).map some =
        cells.map (g.firstObject? · Vocabulary.first) := by
  induction unvisited, cursor using follow.induct g generalizing visited with
  | case1 unvisited cursor hstop =>
      refine ⟨[], .stop ?_, ?_⟩
      · rw [h, mem_cells] at hstop
        rcases hstop with hnil | hstop
        · exact .inl hnil
        · by_cases hvisited : cursor ∈ visited
          · exact .inr (.inl hvisited)
          · refine .inr (.inr (Option.not_isSome_iff_eq_none.1 fun hsome => ?_))
            exact hstop ⟨hsome, hvisited⟩
      · rw [follow, dif_pos hstop]
        rfl
  | case2 unvisited cursor hstop hitem =>
      refine ⟨[], .stop (.inr (.inr hitem)), ?_⟩
      rw [follow, dif_neg hstop, hitem]
      rfl
  | case3 unvisited cursor hstop item hitem hnext =>
      rw [not_or, not_not] at hstop
      refine ⟨[cursor], .last hstop.1 ((h cursor).1 hstop.2).2 hitem hnext, ?_⟩
      rw [follow, dif_neg (by simpa using hstop), hitem, hnext, List.map_singleton,
        List.map_singleton, hitem]
  | case4 unvisited cursor hstop item hitem next hnext ih =>
      simp only [List.unattach_filter, List.unattach_attach] at ih
      -- the cursor moves from the cells that are left to those that were visited
      have hleft : ∀ c, c ∈ unvisited.filter (· != cursor) ↔
          c ∈ g.cells ∧ c ∉ cursor :: visited := by
        intro c
        rw [List.mem_filter, h, List.mem_cons, not_or, bne_iff_ne, and_assoc,
          and_comm (a := c ∉ visited)]
      obtain ⟨cells, hwalk, hitems⟩ := ih hleft
      have hstop' := hstop
      rw [not_or, not_not] at hstop'
      refine ⟨cursor :: cells, .step hstop'.1 ((h cursor).1 hstop'.2).2 hitem hnext hwalk, ?_⟩
      rw [follow, dif_neg hstop, hitem, hnext]
      dsimp only
      rw [List.map_cons, List.map_cons, hitem, hitems]

theorem exists_walk_listItems (g : Graph) (head : String) :
    ∃ cells, g.Walk [] head cells ∧
      (g.listItems head).map some = cells.map (g.firstObject? · Vocabulary.first) :=
  exists_walk_follow fun _ => (and_iff_left List.not_mem_nil).symm

/-! ## Chains -/

/-- The node at which a list with these cells begins. -/
def headOf (cells : List String) : String :=
  cells.head?.getD Vocabulary.nil

theorem headOf_cons (cell : String) (cells : List String) : headOf (cell :: cells) = cell :=
  rfl

/-- The triples that give each cell its item and the next cell. -/
def chain : (cells items : List String) → List Triple
  | cell :: cells, item :: items =>
    ⟨cell, Vocabulary.first, item⟩ :: ⟨cell, Vocabulary.rest, headOf cells⟩ :: chain cells items
  | _, _ => []

/-- The triples that link a subject to a list. -/
def listLink (s p : String) (cells items : List String) : List Triple :=
  ⟨s, p, headOf cells⟩ :: chain cells items

/-- Each cell has its item and leads to the next one. -/
inductive Holds (g : Graph) : (cells items : List String) → Prop
  | nil : Holds g [] []
  | cons {cell item : String} {cells items : List String}
      (hitem : g.firstObject? cell Vocabulary.first = some item)
      (hnext : g.firstObject? cell Vocabulary.rest = some (headOf cells))
      (hrest : Holds g cells items) : Holds g (cell :: cells) (item :: items)

theorem Holds.subset_cells (h : g.Holds cells items) : cells ⊆ g.cells := by
  induction h with
  | nil => exact List.nil_subset _
  | cons hitem _ _ ih =>
      refine List.cons_subset.2 ⟨?_, ih⟩
      rw [mem_cells, hitem]
      rfl

theorem Holds.follow_eq (h : g.Holds cells items) (hnodup : cells.Nodup)
    (hnil : Vocabulary.nil ∉ cells) (hunvisited : cells ⊆ unvisited) :
    g.follow unvisited (headOf cells) = items := by
  induction h generalizing unvisited with
  | nil =>
      rw [follow, dif_pos (.inl rfl)]
  | @cons cell item cells items hitem hnext _ ih =>
      rw [List.nodup_cons] at hnodup
      rw [List.mem_cons, not_or] at hnil
      rw [List.cons_subset] at hunvisited
      have hgo : ¬ (cell = Vocabulary.nil ∨ cell ∉ unvisited) := by
        rw [not_or, not_not]
        exact ⟨Ne.symm hnil.1, hunvisited.1⟩
      have hleft : cells ⊆ unvisited.filter (· != cell) := by
        intro c hc
        refine List.mem_filter.2 ⟨hunvisited.2 hc, bne_iff_ne.2 ?_⟩
        rintro rfl
        exact hnodup.1 hc
      rw [headOf_cons, follow, dif_neg hgo, hitem, hnext]
      exact congrArg (item :: ·) (ih hnodup.2 hnil.2 hleft)

theorem Holds.listItems_eq (h : g.Holds cells items) (hnodup : cells.Nodup)
    (hnil : Vocabulary.nil ∉ cells) : g.listItems (headOf cells) = items :=
  h.follow_eq hnodup hnil h.subset_cells

theorem mem_chain {t : Triple} (h : t ∈ chain cells items) :
    t.subject ∈ cells ∧ t.predicate ∈ Vocabulary.linking := by
  induction cells generalizing items with
  | nil => cases h
  | cons cell cells ih =>
      cases items with
      | nil => cases h
      | cons item items =>
          rw [chain, List.mem_cons, List.mem_cons] at h
          rcases h with rfl | rfl | h
          · exact ⟨List.mem_cons_self, Vocabulary.first_mem_linking⟩
          · exact ⟨List.mem_cons_self, Vocabulary.rest_mem_linking⟩
          · exact ⟨List.mem_cons_of_mem cell (ih h).1, (ih h).2⟩

theorem firstObject?_of_unique {o : String} (h : (⟨s, p, o⟩ : Triple) ∈ g.toList)
    (hunique : ∀ o', (⟨s, p, o'⟩ : Triple) ∈ g.toList → o' = o) : g.firstObject? s p = some o := by
  obtain ⟨o', ho'⟩ := Option.isSome_iff_exists.1 (isSome_firstObject?.2 ⟨o, mem_objects.2 h⟩)
  rw [ho', hunique o' (mem_objects.1 (mem_objects_of_firstObject? ho'))]

/-- A graph in which the cells lead nowhere else holds the items of a chain. -/
theorem holds_of_chain (hlength : cells.length = items.length) (hnodup : cells.Nodup)
    (hchain : chain cells items ⊆ g.toList)
    (honly : ∀ t ∈ g.toList, t.subject ∈ cells → t.predicate ∈ Vocabulary.linking →
      t ∈ chain cells items) : g.Holds cells items := by
  induction cells generalizing items with
  | nil =>
      rw [List.eq_nil_of_length_eq_zero hlength.symm]
      exact .nil
  | cons cell cells ih =>
      cases items with
      | nil => cases hlength
      | cons item items =>
          rw [List.nodup_cons] at hnodup
          rw [chain, List.cons_subset, List.cons_subset] at hchain
          obtain ⟨hfirst, hrest, hchain⟩ := hchain
          have hsplit : ∀ t ∈ g.toList, t.subject ∈ cell :: cells →
              t.predicate ∈ Vocabulary.linking → t = ⟨cell, Vocabulary.first, item⟩ ∨
                t = ⟨cell, Vocabulary.rest, headOf cells⟩ ∨ t ∈ chain cells items := by
            intro t ht hs hp
            have hmem := honly t ht hs hp
            rwa [chain, List.mem_cons, List.mem_cons] at hmem
          refine .cons (firstObject?_of_unique hfirst ?_) (firstObject?_of_unique hrest ?_) ?_
          · intro o ho
            rcases hsplit _ ho List.mem_cons_self Vocabulary.first_mem_linking with heq | heq | hmem
            · exact congrArg Triple.object heq
            · exact absurd (congrArg Triple.predicate heq) Vocabulary.first_ne_rest
            · exact absurd (mem_chain hmem).1 hnodup.1
          · intro o ho
            rcases hsplit _ ho List.mem_cons_self Vocabulary.rest_mem_linking with heq | heq | hmem
            · exact absurd (congrArg Triple.predicate heq).symm Vocabulary.first_ne_rest
            · exact congrArg Triple.object heq
            · exact absurd (mem_chain hmem).1 hnodup.1
          · refine ih (Nat.succ.inj hlength) hnodup.2 hchain fun t ht hs hp => ?_
            have hne : t.subject ≠ cell := fun heq => hnodup.1 (heq ▸ hs)
            rcases hsplit t ht (List.mem_cons_of_mem cell hs) hp with rfl | rfl | hmem
            · exact absurd rfl hne
            · exact absurd rfl hne
            · exact hmem

/-! ## Lists in new cells -/

/-- What an object contributes to the members of a relation: the items of the list that begins
there, or itself. -/
def expand (g : Graph) (object : String) : List String :=
  if object = Vocabulary.nil then []
  else if (g.firstObject? object Vocabulary.first).isSome then g.listItems object
  else [object]

theorem members_eq_flatMap (g : Graph) (s p : String) :
    g.members s p = (g.objects s p).flatMap g.expand :=
  rfl

theorem Agree.expand_eq {region : Set String} {g' : Graph} {object : String}
    (h : Agree Vocabulary.linking region g g') (hobject : object ∈ region) :
    g'.expand object = g.expand object := by
  have hl := List.Subset.refl Vocabulary.linking
  rw [expand, expand, h.first_eq hl hobject, h.listItems_eq hl hobject]

theorem Holds.expand_headOf (h : g.Holds cells items) (hnodup : cells.Nodup)
    (hnil : Vocabulary.nil ∉ cells) : g.expand (headOf cells) = items := by
  have hitems := h.listItems_eq hnodup hnil
  cases h with
  | nil => rfl
  | cons hitem _ _ =>
      rw [List.mem_cons, not_or] at hnil
      rw [headOf_cons] at hitems ⊢
      rw [expand, if_neg (Ne.symm hnil.1), hitem, Option.isSome_some, if_pos rfl, hitems]

/-- A node that can become a cell: it is not `nil`, and no triple is about it or leads to it. -/
structure Fresh (g : Graph) (node : String) : Prop where
  ne_nil : node ≠ Vocabulary.nil
  subject : ∀ t ∈ g.toList, t.subject ≠ node
  object : ∀ t ∈ g.toList, t.object ≠ node

theorem nodup_objects (g : Graph) (s p : String) : (g.objects s p).Nodup := by
  rw [objects_eq]
  refine (g.nodup.filter _).map_on fun t ht u hu hobject => ?_
  have hsame : ∀ t ∈ g.toList.filter (fun t => t.subject == s && t.predicate == p),
      t.subject = s ∧ t.predicate = p := by
    intro t ht
    have hc := (List.mem_filter.1 ht).2
    rwa [Bool.and_eq_true, beq_iff_eq, beq_iff_eq] at hc
  obtain ⟨hs, hp⟩ := hsame t ht
  obtain ⟨hs', hp'⟩ := hsame u hu
  cases t
  cases u
  rw [Triple.mk.injEq]
  exact ⟨hs.trans hs'.symm, hp.trans hp'.symm, hobject⟩

/-- If triples give a relation one object only, it comes last, unless it is there already. -/
theorem objects_foldl_insert_of_unique {ts : List Triple} {o : String}
    (hmem : (⟨s, p, o⟩ : Triple) ∈ ts)
    (hunique : ∀ o', (⟨s, p, o'⟩ : Triple) ∈ ts → o' = o) :
    (ts.foldl insert g).objects s p =
      if o ∈ g.objects s p then g.objects s p else g.objects s p ++ [o] := by
  obtain ⟨more, hmore⟩ := g.objects_foldl_insert ts s p
  have hnodup := (ts.foldl insert g).nodup_objects s p
  rw [hmore, List.nodup_append] at hnodup
  obtain ⟨-, hnodup, hdisjoint⟩ := hnodup
  have hmem_iff : ∀ o', o' ∈ g.objects s p ++ more ↔
      o' ∈ g.objects s p ∨ (⟨s, p, o'⟩ : Triple) ∈ ts := by
    intro o'
    rw [← hmore, mem_objects, mem_toList_foldl_insert, mem_objects]
  have honly : ∀ o' ∈ more, o' = o := by
    intro o' ho'
    rcases (hmem_iff o').1 (List.mem_append_right _ ho') with hold | hnew
    · exact absurd rfl (hdisjoint o' hold o' ho')
    · exact hunique o' hnew
  rw [hmore]
  split
  · next hold =>
    have hnone : more = [] := by
      apply List.eq_nil_iff_forall_not_mem.2
      intro o' ho'
      rw [honly o' ho'] at ho'
      exact hdisjoint o hold o ho' rfl
    rw [hnone, List.append_nil]
  · next hnew =>
    have ho : o ∈ more := by
      rcases List.mem_append.1 ((hmem_iff o).2 (.inr hmem)) with hold | hmore
      · exact absurd hold hnew
      · exact hmore
    have hperm : more.Perm [o] := (List.perm_ext_iff_of_nodup hnodup (List.nodup_singleton o)).2
      fun o' => ⟨fun h => List.mem_singleton.2 (honly o' h), fun h => by
        rw [List.mem_singleton.1 h]
        exact ho⟩
    rw [List.perm_singleton.1 hperm]

section Linked

variable {ts : List Triple} (hp : p ∉ Vocabulary.linking)
  (hlength : cells.length = items.length) (hfresh : ∀ cell ∈ cells, g.Fresh cell)
  (hnodup : cells.Nodup) (hts : ∀ t, t ∈ ts ↔ t ∈ listLink s p cells items)
include hp hfresh hts

/-- Outside of the new cells nothing has changed, and nothing leads into them. -/
theorem agree_listLink :
    Agree Vocabulary.linking {node | node ∉ cells} g (ts.foldl insert g) := by
  constructor
  · intro node hnode r hr
    refine objects_foldl_insert_of_ne fun t ht hsubject => ?_
    rcases List.mem_cons.1 ((hts t).1 ht) with rfl | ht
    · rintro rfl
      exact hp hr
    · rw [← hsubject] at hnode
      exact absurd (mem_chain ht).1 hnode
  · intro node _ r _ o ho hmem
    exact (hfresh o hmem).object _ (mem_objects.1 ho) rfl

include hlength hnodup

theorem holds_listLink : (ts.foldl insert g).Holds cells items := by
  refine holds_of_chain hlength hnodup (fun t ht => ?_) fun t ht hs hr => ?_
  · exact mem_toList_foldl_insert.2 (.inr ((hts t).2 (List.mem_cons_of_mem _ ht)))
  · rcases mem_toList_foldl_insert.1 ht with hold | hnew
    · exact absurd rfl ((hfresh _ hs).subject t hold)
    · rcases List.mem_cons.1 ((hts t).1 hnew) with rfl | hmem
      · exact absurd hr hp
      · exact hmem

theorem members_listLink :
    (ts.foldl insert g).members s p = g.members s p ++ items := by
  have hagree := agree_listLink hp hfresh hts
  have hholds := holds_listLink hp hlength hfresh hnodup hts
  have hnil : Vocabulary.nil ∉ cells := fun hmem => (hfresh _ hmem).ne_nil rfl
  have hnew := hholds.expand_headOf hnodup hnil
  have houtside : ∀ o ∈ g.objects s p, o ∉ cells := fun o ho hmem =>
    (hfresh o hmem).object _ (mem_objects.1 ho) rfl
  have hold : (g.objects s p).flatMap (ts.foldl insert g).expand = g.members s p :=
    List.flatMap_congr fun o ho => hagree.expand_eq (houtside o ho)
  have hlink : ∀ o, (⟨s, p, o⟩ : Triple) ∈ ts → o = headOf cells := by
    intro o ho
    rcases List.mem_cons.1 ((hts _).1 ho) with heq | hmem
    · exact congrArg Triple.object heq
    · exact absurd (mem_chain hmem).2 hp
  rw [members_eq_flatMap,
    objects_foldl_insert_of_unique ((hts _).2 List.mem_cons_self) hlink]
  split
  · next hmem =>
    -- only the empty list can be linked already
    have hempty : cells = [] := by
      cases cells with
      | nil => rfl
      | cons cell cells => exact absurd List.mem_cons_self (houtside _ hmem)
    subst hempty
    rw [hold, List.eq_nil_of_length_eq_zero hlength.symm, List.append_nil]
  · rw [List.flatMap_append, hold, List.flatMap_singleton, hnew]

end Linked

/-! ## Reading lists -/

theorem cells_eq (g : Graph) :
    g.cells = (g.toList.filter (·.predicate = Vocabulary.first)).map (·.subject) := by
  rw [cells, query_eq]
  refine congrArg _ (List.filter_congr fun t _ => ?_)
  simp [Pattern.matches_iff]

/-- A list that is linked in new cells is read behind the former members, in whatever order its
triples are inserted. On every graph a list is followed along one walk, which ends, visits no cell
twice and gives one item for each cell that it visits. -/
theorem lists_read (g : Graph) :
    (∀ (s p : String) (items cells : List String) (ts : List Triple),
      p ≠ Vocabulary.first → p ≠ Vocabulary.rest → cells.length = items.length → cells.Nodup →
      (∀ cell ∈ cells, g.Fresh cell) → (∀ t, t ∈ ts ↔ t ∈ listLink s p cells items) →
      (ts.foldl insert g).members s p = g.members s p ++ items) ∧
    ∀ head, ∃ cells, g.Walk [] head cells ∧ (∀ cells', g.Walk [] head cells' → cells' = cells) ∧
      cells.Nodup ∧
      (g.listItems head).map some = cells.map (g.firstObject? · Vocabulary.first) ∧
      (g.listItems head).length ≤
        ((g.toList.filter (·.predicate = Vocabulary.first)).map (·.subject)).eraseDups.length := by
  constructor
  · intro s p items cells ts hfirst hrest hlength hnodup hfresh hts
    have hp : p ∉ Vocabulary.linking := fun hmem => (List.mem_pair.1 hmem).elim hfirst hrest
    exact members_listLink hp hlength hfresh hnodup hts
  · intro head
    obtain ⟨cells, hwalk, hitems⟩ := g.exists_walk_listItems head
    refine ⟨cells, hwalk, fun _ => hwalk.unique, hwalk.nodup, hitems, ?_⟩
    have hlength : (g.listItems head).length = cells.length := by
      simpa only [List.length_map] using congrArg List.length hitems
    have hsubset : cells ⊆ g.cells.eraseDups := fun c hc =>
      List.mem_eraseDups.2 (hwalk.subset_cells hc)
    rw [hlength, ← cells_eq]
    exact (hwalk.nodup.subperm hsubset).length_le

/-- A list with a repeated item, `nil` and the head of another list, behind that other list. -/
theorem lists_read_nested :
    let g : Graph := .ofList
      [⟨"urn:c", Vocabulary.and, "urn:x"⟩, ⟨"urn:c", Vocabulary.and, "_:b0"⟩,
        ⟨"_:b0", Vocabulary.first, "urn:y"⟩, ⟨"_:b0", Vocabulary.rest, Vocabulary.nil⟩]
    let items := ["urn:a", Vocabulary.nil, "_:b0", "urn:a"]
    let cells := ["_:b1", "_:b2", "_:b3", "_:b4"]
    let ts := (listLink "urn:c" Vocabulary.and cells items).reverse
    Vocabulary.and ≠ Vocabulary.first ∧ Vocabulary.and ≠ Vocabulary.rest ∧
    cells.length = items.length ∧ cells.Nodup ∧ (∀ cell ∈ cells, g.Fresh cell) ∧
    (∀ t, t ∈ ts ↔ t ∈ listLink "urn:c" Vocabulary.and cells items) ∧
    (ts.foldl insert g).members "urn:c" Vocabulary.and = ["urn:x", "urn:y"] ++ items := by
  intro g items cells ts
  have hfirst : Vocabulary.and ≠ Vocabulary.first := by decide
  have hrest : Vocabulary.and ≠ Vocabulary.rest := by decide
  have hnodup : cells.Nodup := by decide
  have hunused : ∀ cell ∈ cells, cell ≠ Vocabulary.nil ∧
      (∀ t ∈ g.toList, t.subject ≠ cell) ∧ ∀ t ∈ g.toList, t.object ≠ cell := by decide +kernel
  have hfresh : ∀ cell ∈ cells, g.Fresh cell := fun cell hcell =>
    ⟨(hunused cell hcell).1, (hunused cell hcell).2.1, (hunused cell hcell).2.2⟩
  have hts : ∀ t, t ∈ ts ↔ t ∈ listLink "urn:c" Vocabulary.and cells items :=
    fun _ => List.mem_reverse
  have hmembers : g.members "urn:c" Vocabulary.and = ["urn:x", "urn:y"] := by decide +kernel
  refine ⟨hfirst, hrest, rfl, hnodup, hfresh, hts, ?_⟩
  rw [← hmembers]
  exact (lists_read g).1 "urn:c" _ items cells ts hfirst hrest rfl hnodup hfresh hts

end Graph

end UsagePolicy
