import Keyline.Snapshots.Document

/-!
# Reading back what was written

The snapshot of a store reads as that store, whatever its keys and values are. The text is cut into
the tokens of its pairs, these give the pairs back, and pairs in the order of a store make up that
store again.
-/
namespace Keyline.Snapshots

open Json Token

theorem scan_of_next? {cs r : List Char} {t : Token} (hc : cs.dropWhile isSpace = cs)
    (h : next? cs = some (t, r)) : scan cs = t :: scan r := by
  rw [scan]
  split
  · next h' =>
    rw [hc, h] at h'
    cases h'
    rfl
  · next h' =>
    rw [hc, h] at h'
    simp at h'

theorem scan_mark {c : Char} {t : Token} (hs : isSpace c = false)
    (h : ∀ r, next? (c :: r) = some (t, r)) (r : List Char) : scan (c :: r) = t :: scan r := by
  apply scan_of_next? _ (h r)
  rw [List.dropWhile_cons, hs]
  rfl

theorem scan_beginList (r : List Char) : scan ('[' :: r) = .beginList :: scan r :=
  scan_mark (by decide) (fun _ => rfl) r

theorem scan_endList (r : List Char) : scan (']' :: r) = .endList :: scan r :=
  scan_mark (by decide) (fun _ => rfl) r

theorem scan_comma (r : List Char) : scan (',' :: r) = .comma :: scan r :=
  scan_mark (by decide) (fun _ => rfl) r

theorem scan_nil : scan [] = [] := by
  rw [scan]
  rfl

theorem scan_quote (s : String) (r : List Char) : scan (quote s ++ r) = .string s :: scan r := by
  have hq : quote s ++ r = '"' :: (Json.Text.escape s.toList ++ '"' :: r) := by simp [quote]
  rw [hq]
  apply scan_of_next?
  · rw [List.dropWhile_cons]
    rfl
  · change (Json.Text.read (Json.Text.escape s.toList ++ '"' :: r)).map _ = _
    rw [Json.Text.read_escape]
    rfl

def pairTokens (p : String × String) : List Token :=
  [.beginList, .string p.1, .comma, .string p.2, .endList]

theorem scan_pairText (p : String × String) (r : List Char) :
    scan (pairText p ++ r) = pairTokens p ++ scan r := by
  have hp : pairText p ++ r = '[' :: (quote p.1 ++ ',' :: (quote p.2 ++ ']' :: r)) := by
    simp [pairText]
  rw [hp, scan_beginList, scan_quote, scan_comma, scan_quote, scan_endList]
  rfl

/-- The tokens of the pairs behind the first. -/
def moreTokens (ps : List (String × String)) : List Token :=
  ps.flatMap fun p => .comma :: pairTokens p

theorem scan_commaSeparated (p : String × String) (ps : List (String × String))
    (r : List Char) :
    scan (commaSeparated ((p :: ps).map pairText) ++ r) =
      pairTokens p ++ moreTokens ps ++ scan r := by
  induction ps generalizing p with
  | nil => simp [commaSeparated, moreTokens, scan_pairText]
  | cons q qs ih =>
    have hc : commaSeparated ((p :: q :: qs).map pairText) ++ r =
        pairText p ++ ',' :: (commaSeparated ((q :: qs).map pairText) ++ r) := by
      simp [commaSeparated]
    rw [hc, scan_pairText, scan_comma, ih]
    simp [moreTokens]

theorem readMore_moreTokens (ps : List (String × String)) :
    readMore (moreTokens ps ++ [.endList]) = .ok ps := by
  induction ps with
  | nil => rfl
  | cons p ps ih =>
    have hm : moreTokens (p :: ps) ++ [.endList] =
        .comma :: .beginList :: .string p.1 :: .comma :: .string p.2 :: .endList ::
          (moreTokens ps ++ [.endList]) := by
      simp [moreTokens, pairTokens]
    rw [hm, readMore, ih]

def documentTokens : List (String × String) → List Token
  | [] => [.beginList, .endList]
  | p :: ps => .beginList :: (pairTokens p ++ moreTokens ps ++ [.endList])

theorem scan_text (ps : List (String × String)) : scan (text ps) = documentTokens ps := by
  cases ps with
  | nil =>
    change scan ['[', ']'] = _
    rw [scan_beginList, scan_endList, scan_nil]
    rfl
  | cons p ps =>
    have ht : text (p :: ps) = '[' :: (commaSeparated ((p :: ps).map pairText) ++ [']']) := rfl
    rw [ht, scan_beginList, scan_commaSeparated, scan_endList, scan_nil]
    rfl

theorem readPairs_documentTokens (ps : List (String × String)) :
    readPairs (documentTokens ps) = .ok ps := by
  cases ps with
  | nil => rfl
  | cons p ps =>
    have ht : documentTokens (p :: ps) = .beginList :: .beginList :: .string p.1 :: .comma ::
        .string p.2 :: .endList :: (moreTokens ps ++ [.endList]) := by
      simp [documentTokens, pairTokens]
    rw [ht, readPairs, readMore_moreTokens]

/-- The written list of any pairs reads as these pairs. -/
theorem readPairs_scan_text (ps : List (String × String)) :
    readPairs (scan (text ps)) = .ok ps := by
  rw [scan_text, readPairs_documentTokens]

theorem insert_eq_append {k v : String} {ps : List (String × String)}
    (h : ∀ p ∈ ps, Text.Before p.1 k) : Pairs.insert k v ps = ps ++ [(k, v)] := by
  induction ps with
  | nil => rfl
  | cons p ps ih =>
    have hp := h p List.mem_cons_self
    rw [Pairs.insert, if_neg hp.asymm, if_neg hp.ne, ih fun q hq => h q (List.mem_cons_of_mem _ hq)]
    rfl

theorem pairs_foldl_insert {s : Store} {ps : List (String × String)}
    (h : Pairs.Ordered (s.pairs ++ ps)) :
    (ps.foldl (fun (s : Store) p => s.insert p.1 p.2) s).pairs = s.pairs ++ ps := by
  induction ps generalizing s with
  | nil => simp
  | cons p ps ih =>
    have hs : (s.insert p.1 p.2).pairs = s.pairs ++ [p] :=
      insert_eq_append fun q hq =>
        (List.pairwise_append.1 h).2.2 q hq p List.mem_cons_self
    rw [List.foldl_cons, ih, hs, List.append_assoc, List.singleton_append]
    rwa [hs, List.append_assoc, List.singleton_append]

theorem ofList_pairs (s : Store) : Store.ofList s.pairs = s := by
  have h : (Store.ofList s.pairs).pairs = s.pairs := pairs_foldl_insert (s := ∅) s.ordered
  cases hs : Store.ofList s.pairs
  cases s
  simp_all

theorem ofBytes_encode (s : Store) : ofBytes (encode s) = scan (text s.pairs) := by
  rw [ofBytes, encode, Utf8.split_encodeChars]
  simp

/-- Reading undoes writing. -/
theorem decode_encode (s : Store) : decode (encode s) = .ok s := by
  rw [decode, ofBytes_encode, readPairs_scan_text]
  dsimp only
  rw [ofList_pairs]

end Keyline.Snapshots
