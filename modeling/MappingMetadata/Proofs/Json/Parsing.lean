import MappingMetadata.Json.Parser
import MappingMetadata.Proofs.Json.Lexing

/-!
# Printed data is parsed back

**Theorem (`parse?_render`).** The rendered text of any data is parsed to the tree of the data.

The text is cut into the tokens of the data (`tokens?_print`). Put together, the tokens of a value
complete the value whatever is open around it (`foldlM_tokens`); those of further items or members
add to the list or map that is open (`foldlM_itemTokens`, `foldlM_memberTokens`).
-/

namespace MappingMetadata.Json

namespace ParseState

/-- The first token of a value is no closing sign, so it begins the first item of a list. -/
theorem foldlM_firstItem (d : Data) (fs : List Frame) (rest : List Token) :
    (tokens d ++ rest).foldlM step (.firstItem fs) =
      (tokens d ++ rest).foldlM step (.value (.list [] :: fs)) := by
  match d with
  | .null | .bool _ | .int _ | .text _ | .list [] | .list (_ :: _) | .record []
  | .record ((_, _) :: _) => rfl

theorem foldlM_cons_of_step {s s' : ParseState} {t : Token} (h : step s t = some s')
    (ts : List Token) : (t :: ts).foldlM step s = ts.foldlM step s' := by
  rw [List.foldlM_cons, h]
  rfl

mutual

/-- The tokens of a value complete it. -/
theorem foldlM_tokens (d : Data) (fs : List Frame) (rest : List Token) :
    (tokens d ++ rest).foldlM step (.value fs) =
      rest.foldlM step (.complete fs (Tree.ofData d)) := by
  match d with
  | .null | .bool _ | .int _ | .text _ | .list [] | .record [] => rfl
  | .list (d :: ds) =>
    have htokens : tokens (.list (d :: ds)) ++ rest =
        .openList :: (tokens d ++ (itemTokens ds ++ .closeList :: rest)) := by
      simp [tokens]
    rw [htokens, foldlM_cons_of_step rfl, foldlM_firstItem, foldlM_tokens d,
      foldlM_itemTokens ds]
    simp [Tree.ofData, Tree.ofItems]
  | .record ((k, d) :: ms) =>
    have htokens : tokens (.record ((k, d) :: ms)) ++ rest = .openMap :: .string (.text k) ::
        .colon :: (tokens d ++ (memberTokens ms ++ .closeMap :: rest)) := by
      simp [tokens]
    rw [htokens, foldlM_cons_of_step rfl, foldlM_cons_of_step rfl, foldlM_cons_of_step rfl,
      foldlM_tokens d, foldlM_memberTokens ms]
    simp [Tree.ofData, Tree.ofMembers]

/-- The tokens of further items, up to the end of their list. -/
theorem foldlM_itemTokens (ds : List Data) (items : List Tree) (t : Tree) (fs : List Frame)
    (rest : List Token) :
    (itemTokens ds ++ .closeList :: rest).foldlM step (.complete (.list items :: fs) t) =
      rest.foldlM step (.complete fs (.list ((t :: items).reverse ++ Tree.ofItems ds))) := by
  match ds with
  | [] => simp [itemTokens, Tree.ofItems, step]
  | d :: ds =>
    have htokens : itemTokens (d :: ds) ++ .closeList :: rest =
        .comma :: (tokens d ++ (itemTokens ds ++ .closeList :: rest)) := by
      simp [itemTokens]
    rw [htokens, foldlM_cons_of_step rfl, foldlM_tokens d, foldlM_itemTokens ds]
    simp [Tree.ofItems]

/-- The tokens of further members, up to the end of their map. -/
theorem foldlM_memberTokens (ms : List (String × Data)) (entries : List (Tree × Tree))
    (key t : Tree) (fs : List Frame) (rest : List Token) :
    (memberTokens ms ++ .closeMap :: rest).foldlM step (.complete (.map entries key :: fs) t) =
      rest.foldlM step
        (.complete fs (.map (((key, t) :: entries).reverse ++ Tree.ofMembers ms))) := by
  match ms with
  | [] => simp [memberTokens, Tree.ofMembers, step]
  | (k, d) :: ms =>
    have htokens : memberTokens ((k, d) :: ms) ++ .closeMap :: rest = .comma ::
        .string (.text k) :: .colon :: (tokens d ++ (memberTokens ms ++ .closeMap :: rest)) := by
      simp [memberTokens]
    rw [htokens, foldlM_cons_of_step rfl, foldlM_cons_of_step rfl, foldlM_cons_of_step rfl,
      foldlM_tokens d, foldlM_memberTokens ms]
    simp [Tree.ofMembers]

end

end ParseState

/-- **Printed data is parsed back**: the text of any data is read as the tree of the data. -/
theorem parse?_render (d : Data) : parse? (render d) = some (Tree.ofData d) := by
  have htokens : (tokens d).foldlM ParseState.step (.value []) =
      some (.complete [] (Tree.ofData d)) := by
    have hcomplete := ParseState.foldlM_tokens d [] []
    rwa [List.append_nil] at hcomplete
  rw [parse?, render, String.toList_ofList, tokens?_print]
  change ((tokens d).foldlM ParseState.step (.value []) >>= ParseState.result?) = _
  rw [htokens]
  rfl

end MappingMetadata.Json
