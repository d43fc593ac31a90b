import UsagePolicy.Json.Magnitude
import UsagePolicy.Json.Parser
import UsagePolicy.Proofs.Json.Scanning
/-!
# Reading what was written

A value that is written, and not nested too deep, is read back: its layout is scanned into its
tokens, and its tokens are put together to the value.
-/

namespace UsagePolicy.Json

namespace Reading

variable {limit : Nat} {r r' r'' : Reading} {t : Token} {ts ts' : List Token}

/-- Tokens lead from one reading to another. -/
def Leads (limit : Nat) (r : Reading) (ts : List Token) (r' : Reading) : Prop :=
  ts.foldlM (step limit) r = some r'

namespace Leads

theorem nil : Leads limit r [] r := rfl

theorem cons (h : step limit r t = some r') (h' : Leads limit r' ts r'') :
    Leads limit r (t :: ts) r'' := by
  rw [Leads, List.foldlM_cons, h]
  exact h'

theorem one (h : step limit r t = some r') : Leads limit r [t] r' :=
  cons h nil

theorem append (h : Leads limit r ts r') (h' : Leads limit r' ts' r'') :
    Leads limit r (ts ++ ts') r'' := by
  rw [Leads, List.foldlM_append, h]
  exact h'

end Leads

/-- After an opened array every token but the closing one begins an item. -/
theorem step_itemOrEnd (unfinished : List Frame) (h : t ≠ .closeArray) :
    step limit (itemOrEnd unfinished) t = step limit (value (.array [] :: unfinished)) t := by
  cases t with
  | closeArray => exact absurd rfl h
  | openArray => rfl
  | openObject => rfl
  | closeObject => rfl
  | comma => rfl
  | colon => rfl
  | null => rfl
  | bool => rfl
  | number => rfl
  | string => rfl

end Reading

open Reading

theorem exists_tokens_eq_cons (v : Json) : ∃ t ts, tokens v = t :: ts ∧ t ≠ .closeArray := by
  unfold tokens
  split <;> exact ⟨_, _, rfl, Token.noConfusion⟩

/-- The tokens of a value lead to the value, wherever a value is asked for. -/
def Legible (limit height : Nat) (v : Json) : Prop :=
  ∀ unfinished : List Frame, unfinished.length + height ≤ limit →
    Leads limit (.value unfinished) (tokens v) (.done v unfinished)

section

variable {limit height : Nat} {unfinished : List Frame}

theorem Legible.firstItem {v : Json} (h : Legible limit height v)
    (hroom : unfinished.length + 1 + height ≤ limit) :
    Leads limit (.itemOrEnd unfinished) (tokens v) (.done v (.array [] :: unfinished)) := by
  have hvalue := h (.array [] :: unfinished) hroom
  obtain ⟨t, ts, htokens, ht⟩ := exists_tokens_eq_cons v
  rw [htokens] at hvalue ⊢
  rw [Leads, List.foldlM_cons] at hvalue ⊢
  rw [step_itemOrEnd unfinished ht]
  exact hvalue

theorem leads_tokensItems {vs : List Json} (h : ∀ v ∈ vs, Legible limit height v)
    (hroom : unfinished.length + 1 + height ≤ limit) (items : List Json) (latest : Json) :
    Leads limit (.done latest (.array items :: unfinished)) (tokensItems vs ++ [.closeArray])
      (.done (array (items.reverse ++ latest :: vs)) unfinished) := by
  induction vs generalizing items latest with
  | nil =>
      rw [tokensItems, ← List.reverse_cons]
      exact .one rfl
  | cons v vs ih =>
      have hv := h v List.mem_cons_self (.array (latest :: items) :: unfinished) hroom
      have hvs := ih (fun w hw => h w (List.mem_cons_of_mem v hw)) (latest :: items) v
      rw [List.reverse_cons, List.append_assoc] at hvs
      rw [tokensItems, List.append_assoc]
      exact .cons rfl (hv.append hvs)

theorem leads_tokensMembers {ms : List (String × Json)}
    (h : ∀ m ∈ ms, Legible limit height m.2) (hroom : unfinished.length + 1 + height ≤ limit)
    (members : List (String × Json)) (n : String) (latest : Json) :
    Leads limit (.done latest (.object members n :: unfinished))
      (tokensMembers ms ++ [.closeObject])
      (.done (object (members.reverse ++ (n, latest) :: ms)) unfinished) := by
  induction ms generalizing members n latest with
  | nil =>
      rw [tokensMembers, ← List.reverse_cons]
      exact .one rfl
  | cons m ms ih =>
      obtain ⟨name, v⟩ := m
      have hv := h (name, v) List.mem_cons_self
        (.object ((n, latest) :: members) name :: unfinished) hroom
      have hms := ih (fun m hm => h m (List.mem_cons_of_mem _ hm)) ((n, latest) :: members) name v
      rw [List.reverse_cons, List.append_assoc] at hms
      rw [tokensMembers, List.append_assoc]
      exact .cons rfl (.cons rfl (.cons rfl (hv.append hms)))

end

theorem Plain.legible {limit height : Nat} {v : Json} (h : Plain height v) :
    Legible limit height v := by
  induction h with
  | null => exact fun _ _ => .one rfl
  | bool b => exact fun _ _ => .one rfl
  | string s => exact fun _ _ => .one rfl
  | @array height vs _ ih =>
      intro unfinished hroom
      have hopen : step limit (.value unfinished) .openArray = some (.itemOrEnd unfinished) :=
        if_pos (by omega)
      cases vs with
      | nil => exact .cons hopen (.one rfl)
      | cons v vs =>
          have hlimit : unfinished.length + 1 + height ≤ limit := by omega
          have hv := (ih v List.mem_cons_self).firstItem hlimit
          have hvs := leads_tokensItems (fun w hw => ih w (List.mem_cons_of_mem v hw)) hlimit [] v
          rw [tokens, List.append_assoc]
          exact .cons hopen (hv.append hvs)
  | @object height ms _ ih =>
      intro unfinished hroom
      have hopen : step limit (.value unfinished) .openObject = some (.nameOrEnd unfinished) :=
        if_pos (by omega)
      cases ms with
      | nil => exact .cons hopen (.one rfl)
      | cons m ms =>
          obtain ⟨n, v⟩ := m
          have hlimit : unfinished.length + 1 + height ≤ limit := by omega
          have hv := ih (n, v) List.mem_cons_self (.object [] n :: unfinished) hlimit
          have hms := leads_tokensMembers (fun m hm => ih m (List.mem_cons_of_mem _ hm)) hlimit []
            n v
          rw [tokens, List.append_assoc]
          exact .cons hopen (.cons rfl (.cons rfl (hv.append hms)))

/-- A value without numbers is read from its layout, if the limit allows its height. -/
theorem parse?_pretty {limit height : Nat} {v : Json} (h : Plain height v)
    (hlimit : height ≤ limit) : parse? limit v.pretty = some v := by
  have hroom : ([] : List Frame).length + height ≤ limit := by simpa using hlimit
  have hleads : Leads limit (.value []) (tokens v) (.done v []) := h.legible [] hroom
  rw [parse?, scan_pretty h, Option.bind_some, ofTokens?, hleads]

theorem inRangeItems_eq_all (vs : List Json) : inRangeItems vs = vs.all inRange := by
  induction vs with
  | nil => rfl
  | cons v vs ih => rw [inRangeItems, List.all_cons, ih]

theorem inRangeMembers_eq_all (ms : List (String × Json)) :
    inRangeMembers ms = ms.all fun m => m.2.inRange := by
  induction ms with
  | nil => rfl
  | cons m ms ih => rw [inRangeMembers, List.all_cons, ih]

theorem Plain.inRange {height : Nat} {v : Json} (h : Plain height v) : v.inRange = true := by
  induction h with
  | null => rfl
  | bool b => rfl
  | string s => rfl
  | array _ ih =>
      rw [Json.inRange, inRangeItems_eq_all, List.all_eq_true]
      exact ih
  | object _ ih =>
      rw [Json.inRange, inRangeMembers_eq_all, List.all_eq_true]
      exact ih

end UsagePolicy.Json
