import UsagePolicy.Json.Printer
import UsagePolicy.Json.Token
import UsagePolicy.Proofs.Text.Hex
/-!
# Scanning what was written

The layout of a value is scanned into the tokens of the value. White space makes no difference, and
an escaped string ends at its closing quote and nowhere before.
-/

namespace UsagePolicy.Json

/-! ## Strings -/

namespace Token

/-- What stands for a character is read as this character. -/
theorem scanString_escape (c : Char) (rest : List Char) :
    scanString (escape c ++ rest) = (scanString rest).map fun r => (c :: r.1, r.2) := by
  unfold escape
  split
  -- seven characters have an escape of one letter
  · rfl
  · rfl
  · rfl
  · rfl
  · rfl
  · rfl
  · rfl
  · next hquote hbackslash _ _ _ _ _ =>
    split
    · next hcontrol =>
      show scanString ('\\' :: 'u' :: '0' :: '0' :: _ :: _ :: rest) = _
      rw [scanString, Text.hexNumber?_lowerHexDigit _ (by omega)]
      dsimp only
      rw [Text.charOfCode?_toNat]
    · next hplain =>
      show scanString (c :: rest) = _
      have hordinary : ¬ (c.toNat < 0x20 ∨ c = '\\') := by
        rintro (h | h)
        · exact hplain h
        · exact hbackslash h
      rw [scanString, if_neg hordinary]
      · exact hquote
      · intro _ _ _ _ _ h
        exact absurd h hbackslash
      · intro _ _ h
        exact absurd h hbackslash

theorem scanString_flatMap_escape (cs rest : List Char) :
    scanString (cs.flatMap escape ++ '"' :: rest) = some (cs, rest) := by
  induction cs with
  | nil => rfl
  | cons c cs ih =>
      rw [List.flatMap_cons, List.append_assoc, scanString_escape, ih, Option.map_some]

/-- The token that a character is by itself. -/
def mark? : Char → Option Token
  | '[' => some .openArray
  | ']' => some .closeArray
  | '{' => some .openObject
  | '}' => some .closeObject
  | ',' => some .comma
  | ':' => some .colon
  | _ => none

/-- These characters are scanned into these tokens, whatever follows them. -/
def Scans (cs : List Char) (ts : List Token) : Prop :=
  ∀ rest, scan (cs ++ rest) = (scan rest).map (ts ++ ·)

namespace Scans

variable {cs cs' : List Char} {ts ts' : List Token}

theorem nil : Scans [] [] := by
  intro rest
  simp

theorem append (h : Scans cs ts) (h' : Scans cs' ts') : Scans (cs ++ cs') (ts ++ ts') := by
  intro rest
  rw [List.append_assoc, h, h', Option.map_map]
  refine congrArg (Option.map · _) (funext fun more => ?_)
  exact (List.append_assoc ts ts' more).symm

/-- White space adds no tokens. -/
theorem append_blank (h : Scans cs ts) (h' : Scans cs' []) : Scans (cs ++ cs') ts := by
  have happend := h.append h'
  rwa [List.append_nil] at happend

theorem blank {c : Char} (h : isSpace c = true) : Scans [c] [] := by
  intro rest
  show scan (c :: rest) = _
  rw [scan, if_pos h]
  · simp
  -- no other token begins with white space
  all_goals
    intros
    subst_vars
    exact absurd h (by decide)

theorem spaces (n : Nat) : Scans (List.replicate n ' ') [] := by
  induction n with
  | zero => exact nil
  | succ n ih => exact (blank rfl).append ih

theorem indent (depth : Nat) : Scans (indent depth) [] :=
  (blank rfl).append (spaces _)

theorem quote (s : String) : Scans (quote s) [string s] := by
  intro rest
  have hstring := scanString_flatMap_escape s.toList rest
  have hquote : Json.quote s ++ rest = '"' :: (s.toList.flatMap escape ++ '"' :: rest) := by
    simp [Json.quote]
  rw [hquote, scan]
  split
  · next h =>
    rw [hstring] at h
    cases h
    rw [String.ofList_toList]
    rfl
  · next h =>
    rw [hstring] at h
    cases h

theorem mark {c : Char} {t : Token} (h : mark? c = some t) : Scans [c] [t] := by
  intro rest
  show scan (c :: rest) = (scan rest).map (t :: ·)
  unfold mark? at h
  split at h
  case h_7 => cases h
  all_goals
    cases h
    rw [scan]

theorem openArray : Scans ['['] [.openArray] := mark rfl

theorem closeArray : Scans [']'] [.closeArray] := mark rfl

theorem openObject : Scans ['{'] [.openObject] := mark rfl

theorem closeObject : Scans ['}'] [.closeObject] := mark rfl

theorem comma : Scans [','] [.comma] := mark rfl

theorem colon : Scans [':', ' '] [.colon] :=
  (mark (c := ':') rfl).append_blank (blank rfl)

end Scans

end Token

/-! ## Values -/

mutual

/-- The tokens of a value. -/
def tokens : Json → List Token
  | null => [.null]
  | bool b => [.bool b]
  | number n => [.number n]
  | string s => [.string s]
  | array [] => [.openArray, .closeArray]
  | array (v :: vs) => .openArray :: tokens v ++ tokensItems vs ++ [.closeArray]
  | object [] => [.openObject, .closeObject]
  | object ((n, v) :: ms) =>
    .openObject :: .string n :: .colon :: tokens v ++ tokensMembers ms ++ [.closeObject]

/-- The tokens of the items that follow another. -/
def tokensItems : List Json → List Token
  | [] => []
  | v :: vs => .comma :: tokens v ++ tokensItems vs

/-- The tokens of the members that follow another. -/
def tokensMembers : List (String × Json) → List Token
  | [] => []
  | (n, v) :: ms => .comma :: .string n :: .colon :: tokens v ++ tokensMembers ms

end

/-- Values without numbers, in which at most so many arrays and objects lie in each other. -/
inductive Plain : Nat → Json → Prop
  | null {height : Nat} : Plain height null
  | bool {height : Nat} (b : Bool) : Plain height (bool b)
  | string {height : Nat} (s : String) : Plain height (string s)
  | array {height : Nat} {vs : List Json} (h : ∀ v ∈ vs, Plain height v) :
      Plain (height + 1) (array vs)
  | object {height : Nat} {ms : List (String × Json)} (h : ∀ m ∈ ms, Plain height m.2) :
      Plain (height + 1) (object ms)

open Token

theorem scans_layoutItems {vs : List Json}
    (h : ∀ v ∈ vs, ∀ depth, Scans (layout depth v) (tokens v)) (depth : Nat) :
    Scans (layoutItems depth vs) (tokensItems vs) := by
  induction vs with
  | nil => exact .nil
  | cons v vs ih =>
      have hv := h v List.mem_cons_self depth
      have hvs := ih fun w hw => h w (List.mem_cons_of_mem v hw)
      rw [layoutItems, tokensItems]
      exact ((Scans.comma.append_blank (.indent depth)).append hv).append hvs

theorem scans_layoutMembers {ms : List (String × Json)}
    (h : ∀ m ∈ ms, ∀ depth, Scans (layout depth m.2) (tokens m.2)) (depth : Nat) :
    Scans (layoutMembers depth ms) (tokensMembers ms) := by
  induction ms with
  | nil => exact .nil
  | cons m ms ih =>
      obtain ⟨n, v⟩ := m
      have hv := h (n, v) List.mem_cons_self depth
      have hms := ih fun m hm => h m (List.mem_cons_of_mem _ hm)
      rw [layoutMembers, tokensMembers]
      exact ((((Scans.comma.append_blank (.indent depth)).append (.quote n)).append .colon).append
        hv).append hms

/-- A value is laid out at any depth so that its tokens are scanned. -/
theorem scans_layout {height : Nat} {v : Json} (h : Plain height v) (depth : Nat) :
    Scans (layout depth v) (tokens v) := by
  induction h generalizing depth with
  | null =>
      intro rest
      show scan ('n' :: 'u' :: 'l' :: 'l' :: rest) = _
      rw [scan]
      rfl
  | bool b =>
      intro rest
      cases b with
      | true =>
          show scan ('t' :: 'r' :: 'u' :: 'e' :: rest) = _
          rw [scan]
          rfl
      | false =>
          show scan ('f' :: 'a' :: 'l' :: 's' :: 'e' :: rest) = _
          rw [scan]
          rfl
  | string s => exact .quote s
  | @array _ vs _ ih =>
      cases vs with
      | nil => exact Scans.openArray.append .closeArray
      | cons v vs =>
          have hv := ih v List.mem_cons_self (depth + 1)
          have hvs := scans_layoutItems (fun w hw => ih w (List.mem_cons_of_mem v hw)) (depth + 1)
          rw [layout, tokens]
          exact ((((Scans.openArray.append_blank (.indent (depth + 1))).append hv).append
            hvs).append_blank (.indent depth)).append .closeArray
  | @object _ ms _ ih =>
      cases ms with
      | nil => exact Scans.openObject.append .closeObject
      | cons m ms =>
          obtain ⟨n, v⟩ := m
          have hv := ih (n, v) List.mem_cons_self (depth + 1)
          have hms := scans_layoutMembers (fun m hm => ih m (List.mem_cons_of_mem _ hm)) (depth + 1)
          rw [layout, tokens]
          exact ((((((Scans.openObject.append_blank (.indent (depth + 1))).append
            (.quote n)).append .colon).append hv).append hms).append_blank
            (.indent depth)).append .closeObject

theorem scan_pretty {height : Nat} {v : Json} (h : Plain height v) :
    scan v.pretty.toList = some (tokens v) := by
  have hscan := scans_layout h 0 []
  rw [List.append_nil] at hscan
  rw [pretty, String.toList_ofList, hscan, scan, Option.map_some, List.append_nil]

end UsagePolicy.Json
