import UsagePolicy.Evaluation.Evaluator
import UsagePolicy.Proofs.FirstOccurrences
import Mathlib.Data.List.Infix
import Mathlib.Data.List.Perm.Subperm
/-!
# Settled evaluations

An evaluation settles if it comes to the same value by the same events on every journal with the
same open nodes, whatever else was recorded there and whatever larger allowance it is given. The
events leave the open nodes as they were, and what is open in between nests as it should.

Settled evaluations compose, so an operation is shown to settle by going through its steps.
-/

namespace UsagePolicy

/-- Open nodes as they should be: no node twice, and each a node that has operands. -/
structure Graph.Nests (g : Graph) (nodes : List String) : Prop where
  nodup : nodes.Nodup
  logical : nodes ⊆ g.logicalNodes

theorem Graph.nests_nil (g : Graph) : g.Nests [] :=
  ⟨List.nodup_nil, List.nil_subset _⟩

theorem Graph.Nests.cons {g : Graph} {nodes : List String} {node : String} (h : g.Nests nodes)
    (hn : node ∉ nodes) (hl : node ∈ g.logicalNodes) : g.Nests (node :: nodes) :=
  ⟨List.nodup_cons.2 ⟨hn, h.nodup⟩, List.cons_subset.2 ⟨hl, h.logical⟩⟩

theorem Graph.Nests.length_le {g : Graph} {nodes : List String} (h : g.Nests nodes) :
    nodes.length ≤ g.logicalNodes.length :=
  (h.nodup.subperm h.logical).length_le

theorem Graph.nodup_logicalNodes (g : Graph) : g.logicalNodes.Nodup :=
  nodup_eraseDups _

/-! ## Balanced events -/

/-- Events after which the same nodes are open as before, without nesting too deep. -/
structure Journal.Balanced (g : Graph) (nodes : List String) (events : Journal) : Prop where
  replay_eq : events.replay nodes = nodes
  not_exhausted : Event.exhausted ∉ events
  nests : g.Nests nodes → ∀ moment : Journal, moment <:+ events → g.Nests (moment.replay nodes)

namespace Journal.Balanced

variable {g : Graph} {nodes : List String}

theorem nil : Balanced g nodes [] where
  replay_eq := rfl
  not_exhausted := List.not_mem_nil
  nests := by
    intro h moment hm
    rw [List.suffix_nil.1 hm]
    exact h

theorem entry (e : TraceEntry) : Balanced g nodes [.entry e] where
  replay_eq := rfl
  not_exhausted := by simp
  nests := by
    intro h moment hm
    rcases List.suffix_cons_iff.1 hm with rfl | hm
    · exact h
    · exact nil.nests h moment hm

private theorem suffix_append {moment later earlier : Journal} (h : moment <:+ later ++ earlier) :
    moment <:+ earlier ∨ ∃ m, m <:+ later ∧ moment = m ++ earlier := by
  rcases List.suffix_or_suffix_of_suffix h (List.suffix_append later earlier) with h' | ⟨m, rfl⟩
  · exact .inl h'
  · obtain ⟨rest, hrest⟩ := h
    rw [← List.append_assoc] at hrest
    exact .inr ⟨m, ⟨rest, List.append_cancel_right hrest⟩, rfl⟩

theorem append {later earlier : Journal} (hl : Balanced g nodes later)
    (he : Balanced g nodes earlier) : Balanced g nodes (later ++ earlier) where
  replay_eq := by rw [replay_append, he.replay_eq, hl.replay_eq]
  not_exhausted := by
    rw [List.mem_append]
    exact fun h => h.elim hl.not_exhausted he.not_exhausted
  nests := by
    intro h moment hm
    rcases suffix_append hm with hm | ⟨m, hm', rfl⟩
    · exact he.nests h moment hm
    · rw [replay_append, he.replay_eq]
      exact hl.nests h m hm'

/-- Events between the opening and the closing of a node. -/
theorem enclosed {node : String} {events : Journal} (hn : node ∉ nodes)
    (hl : node ∈ g.logicalNodes) (h : Balanced g (node :: nodes) events) :
    Balanced g nodes (.closed :: (events ++ [.opened node])) where
  replay_eq := by
    rw [replay_cons, replay_append]
    show Event.closed.act (events.replay (node :: nodes)) = nodes
    rw [h.replay_eq]
    rfl
  not_exhausted := by
    have := h.not_exhausted
    simp_all
  nests := by
    intro hs moment hm
    rcases List.suffix_cons_iff.1 hm with rfl | hm
    · rw [replay_cons, replay_append]
      show g.Nests (Event.closed.act (events.replay (node :: nodes)))
      rw [h.replay_eq]
      exact hs
    · rcases suffix_append hm with hm | ⟨m, hm', rfl⟩
      · rcases List.suffix_cons_iff.1 hm with rfl | hm
        · exact hs.cons hn hl
        · exact nil.nests hs moment hm
      · rw [replay_append]
        exact h.nests (hs.cons hn hl) m hm'

end Journal.Balanced

namespace Traced

def record (kind : TraceKind) (message : String) : Traced Unit :=
  ⟨(), [.entry ⟨kind, message⟩]⟩

def fault (f : EvaluationFault) : Traced Outcome := do
  record .error f.message
  return .error

/-- Between the opening and the closing of a node. -/
def enclosed {α : Type} (node : String) (t : Traced α) : Traced α :=
  ⟨t.value, .closed :: (t.journal ++ [.opened node])⟩

end Traced

/-! ## Evaluations that settle -/

namespace Evaluation

/-- On every journal on which exactly `nodes` are open, and with every allowance from `least` on,
an evaluation comes to the value of `t` by its events. -/
structure Settles {α : Type} (x : Evaluation α) (g : Graph) (least : Nat) (nodes : List String)
    (t : Traced α) : Prop where
  run_eq : ∀ n, least ≤ n → ∀ j : Journal, j.openNodes = nodes →
    x.run n j = (t.value, t.journal ++ j)
  balanced : t.journal.Balanced g nodes

namespace Settles

variable {α β : Type} {g : Graph} {least : Nat} {nodes : List String}

theorem pure (a : α) : Settles (Pure.pure a) g least nodes (Pure.pure a) :=
  ⟨fun _ _ _ _ => rfl, .nil⟩

/-- The rest of an evaluation finds the same nodes open. -/
theorem then_ {x : Evaluation α} {f : α → Evaluation β} {t : Traced α} {u : Traced β}
    (hx : x.Settles g least nodes t) (hf : (f t.value).Settles g least nodes u) :
    (x >>= f).Settles g least nodes ⟨u.value, u.journal ++ t.journal⟩ where
  run_eq := by
    intro n hn j hj
    have hopen : Journal.openNodes (t.journal ++ j) = nodes := by
      rw [Journal.openNodes_append, hj, hx.balanced.replay_eq]
    rw [run_bind, hx.run_eq n hn j hj, hf.run_eq n hn _ hopen, List.append_assoc]
  balanced := hf.balanced.append hx.balanced

theorem bind {x : Evaluation α} {f : α → Evaluation β} {t : Traced α} {u : α → Traced β}
    (hx : x.Settles g least nodes t) (hf : ∀ a, (f a).Settles g least nodes (u a)) :
    (x >>= f).Settles g least nodes (t >>= u) :=
  hx.then_ (hf t.value)

theorem map {x : Evaluation α} {t : Traced α} (f : α → β) (hx : x.Settles g least nodes t) :
    (f <$> x).Settles g least nodes (f <$> t) := by
  rw [map_eq_pure_bind, map_eq_pure_bind]
  exact hx.bind fun a => pure (f a)

theorem record (kind : TraceKind) (message : String) :
    (Evaluation.record kind message).Settles g least nodes (.record kind message) :=
  ⟨fun _ _ _ _ => rfl, .entry _⟩

theorem fault (f : EvaluationFault) :
    (Evaluation.fault f).Settles g least nodes (.fault f) :=
  (record .error f.message).bind fun _ => pure Outcome.error

theorem isOpen (node : String) :
    (Evaluation.isOpen node).Settles g least nodes (Pure.pure (decide (node ∈ nodes))) := by
  refine ⟨fun n _ j hj => ?_, .nil⟩
  rw [← hj]
  rfl

/-- A look at the journal leaves no events of its own. -/
theorem bind_of_eq {x : Evaluation α} {f : α → Evaluation β} {a b : α} {u : Traced β}
    (hx : x.Settles g least nodes (Pure.pure a)) (hab : a = b)
    (hf : (f b).Settles g least nodes u) : (x >>= f).Settles g least nodes u := by
  subst hab
  have h := hx.then_ hf
  rw [show (Pure.pure a : Traced α).journal = [] from rfl, List.append_nil] at h
  exact h

theorem mapM {f : String → Evaluation α} {t : String → Traced α} (xs : List String)
    (hf : ∀ x, (f x).Settles g least nodes (t x)) :
    (xs.mapM f).Settles g least nodes (xs.mapM t) := by
  induction xs with
  | nil => exact pure []
  | cons x xs ih =>
      rw [List.mapM_cons, List.mapM_cons]
      exact (hf x).bind fun a => ih.bind fun as => pure (a :: as)

/-- A node that is opened for an evaluation and closed after it. -/
theorem enclosed {x : Evaluation α} {t : Traced α} {node : String} (hn : node ∉ nodes)
    (hl : node ∈ g.logicalNodes) (hx : x.Settles g least (node :: nodes) t) :
    (do
      note (.opened node)
      let a ← x
      note .closed
      return a).Settles g least nodes (t.enclosed node) where
  run_eq := by
    intro n hle j hj
    have hopen : Journal.openNodes (Event.opened node :: j) = node :: nodes := by
      rw [← hj]
      rfl
    have hrun := hx.run_eq n hle _ hopen
    show ((x.run n (.opened node :: j)).1, Event.closed :: (x.run n (.opened node :: j)).2) = _
    rw [hrun]
    simp [Traced.enclosed]
  balanced := hx.balanced.enclosed hn hl

theorem traced_eq {x : Evaluation α} {t : Traced α} (hx : x.Settles g least [] t) {n : Nat}
    (hn : least ≤ n) : x.traced n = t := by
  have h := hx.run_eq n hn [] rfl
  rw [List.append_nil] at h
  show (⟨(x.run n []).1, (x.run n []).2⟩ : Traced α) = t
  rw [h]

end Settles

end Evaluation

end UsagePolicy
