import Clipp.Foundation.Occurrences
import Clipp.Platform.WideConversion

open Foundation

namespace ClippModel.Popup

open ClippModel.Platform

variable {U : Type} [DecidableEq U] (W : WideChar U)

def kRowMatchLeadChars : Nat := 12

def kPreviewLeadChars : Nat := 400

def kPreviewWindowChars : Nat := 2500

def kMaxHighlightRanges : Nat := 200

def FoldAscii (ch : U) : U :=
  if W.toCode ch ≥ 0x41 ∧ W.toCode ch ≤ 0x5A then W.ofCode (W.toCode ch - 0x41 + 0x61) else ch

def foldsAlike (text needle : List U) (start : Nat) : Bool :=
  (List.range needle.length).all fun i => (text[start + i]?).map (FoldAscii W) = (needle[i]?).map (FoldAscii W)

def ContainsInsensitive (haystack needle : List U) : Bool :=
  if needle.isEmpty then true
  else if needle.length > haystack.length then false
  else (List.range (haystack.length + 1 - needle.length)).any fun start => foldsAlike W haystack needle start

def findFrom (text needle : List U) (start : Nat) (found : List Nat) : List Nat :=
  if start + needle.length ≤ text.length then
    if foldsAlike W text needle start then
      let found := found ++ [start]
      if found.length ≥ kMaxHighlightRanges then found else findFrom text needle (start + (needle.length - 1) + 1) found
    else findFrom text needle (start + 1) found
  else found
termination_by text.length + 1 - start

def FindMatches (text needle : List U) : List Nat :=
  if needle.isEmpty ∨ needle.length > text.length then [] else findFrom W text needle 0 []

def ellipsis : List U := [W.ofCode 0x2026]

def ReWindowRowText (text filter : List U) : List U :=
  if filter.isEmpty then text
  else
    match (FindMatches W text filter).head? with
    | some first => if first > kRowMatchLeadChars then ellipsis W ++ text.drop (first - kRowMatchLeadChars) else text
    | none => text

/-- The region that the flyout shows: where it begins in the full text, and the cut. -/
structure Region (U : Type) where
  start : Nat
  shown : List U
  deriving DecidableEq

def regionAround (full filter : List U) : Region U :=
  let firstMatch := if filter.isEmpty then none else (FindMatches W full filter).head?
  let start :=
    match firstMatch with
    | some first => if first > kPreviewLeadChars then first - kPreviewLeadChars else 0
    | none => 0
  { start := start, shown := (full.drop start).take kPreviewWindowChars }

def WindowAroundFirstMatch (full filter : List U) : List U :=
  let region := regionAround W full filter
  let clippedFront := region.start > 0
  let clippedBack := region.start + region.shown.length < full.length
  (if clippedFront then ellipsis W ++ [W.ofCode 0x20] else []) ++ region.shown ++
    if clippedBack then [W.ofCode 0x20] ++ ellipsis W else []

/-- The needle stands at this place of the text, but for the case of ASCII letters. -/
def MatchesAt (text needle : List U) (i : Nat) : Prop := OccursAt (text.map (FoldAscii W)) (needle.map (FoldAscii W)) i

structure FirstMatch (text needle : List U) (first : Nat) : Prop where
  here : MatchesAt W text needle first
  least : ∀ i < first, ¬ MatchesAt W text needle i

def Region.Covers (region : Region U) (needle : List U) (first : Nat) : Prop :=
  region.start ≤ first ∧ first + needle.length ≤ region.start + region.shown.length

end ClippModel.Popup

namespace ClippProof.Popup

open ClippModel.Platform ClippModel.Popup

variable {U : Type} {W : WideChar U} {text needle : List U} {start first : Nat} {all found : List Nat}

theorem match_inside {i : Nat} (matched : MatchesAt W text needle i) (some_unit : needle ≠ []) :
    i + needle.length ≤ text.length := by
  have within := OccursAt.inside matched (by simpa using some_unit)
  simpa using within

theorem match_shown {i begin size : Nat} (matched : MatchesAt W text needle i) (after : begin ≤ i)
    (covered : i + needle.length ≤ begin + size) (front back : List U) :
    MatchesAt W (front ++ (text.drop begin).take size ++ back) needle (front.length + (i - begin)) := by
  have shown := OccursAt.shown matched after (by rwa [List.length_map]) (front.map (FoldAscii W)) (back.map (FoldAscii W))
  rw [← List.map_drop, ← List.map_take, ← List.map_append, ← List.map_append, List.length_map] at shown
  exact shown

theorem firstMatch_exists {i : Nat} (matched : MatchesAt W text needle i) : ∃ first, FirstMatch W text needle first := by
  classical
  have some_place : ∃ i, MatchesAt W text needle i := ⟨i, matched⟩
  exact ⟨Nat.find some_place, Nat.find_spec some_place, fun j before => Nat.find_min some_place before⟩

theorem greedy_exists (W : WideChar U) (text : List U) (some_unit : needle ≠ []) (start : Nat) :
    ∃ all, Greedy (MatchesAt W text needle) needle.length start all := by
  have positive := List.length_pos_iff.mpr some_unit
  have bounded : ∀ i, MatchesAt W text needle i → i < text.length := by
    intro i matched
    have inside := match_inside matched some_unit
    omega
  exact Greedy.exists_of_bounded bounded positive start

variable [DecidableEq U]

theorem foldsAlike_iff : foldsAlike W text needle start = true ↔ MatchesAt W text needle start := by
  rw [foldsAlike, List.all_eq_true, MatchesAt, occursAt_iff, List.length_map]
  simp only [List.mem_range, decide_eq_true_eq, List.getElem?_map]

theorem containsInsensitive_iff : ContainsInsensitive W text needle = true ↔
    needle.map (FoldAscii W) <:+: text.map (FoldAscii W) := by
  rw [ContainsInsensitive, infix_iff_occursAt]
  by_cases empty : needle = []
  · rw [empty]
    exact iff_of_true rfl ⟨0, List.nil_prefix⟩
  · rw [if_neg (by simpa using empty)]
    split_ifs with longer
    · apply iff_of_false (by simp)
      rintro ⟨i, matched⟩
      have inside := match_inside matched empty
      omega
    · simp only [List.any_eq_true, List.mem_range, foldsAlike_iff]
      constructor
      · rintro ⟨i, _, matched⟩
        exact ⟨i, matched⟩
      · rintro ⟨i, matched⟩
        have inside := match_inside matched empty
        exact ⟨i, by omega, matched⟩

/-- The scan adds the greedy matches from where it stands, up to the cap. -/
theorem findFrom_eq (some_unit : needle ≠ []) (greedy : Greedy (MatchesAt W text needle) needle.length start all)
    (room : found.length < kMaxHighlightRanges) :
    findFrom W text needle start found = (found ++ all).take kMaxHighlightRanges := by
  have positive := List.length_pos_iff.mpr some_unit
  fun_induction findFrom W text needle start found generalizing all with
  | case1 start found inside alike added =>
    rename_i full
    obtain ⟨rest, rfl, _⟩ := greedy.of_hit (foldsAlike_iff.mp alike)
    have exactly : (found ++ [start]).length = kMaxHighlightRanges := by
      have reached : (found ++ [start]).length ≥ kMaxHighlightRanges := full
      rw [List.length_append, List.length_singleton] at reached ⊢
      omega
    rw [List.append_cons, List.take_left' exactly]
  | case2 start found inside alike added more =>
    rename_i ih
    obtain ⟨rest, rfl, further⟩ := greedy.of_hit (foldsAlike_iff.mp alike)
    have next : start + (needle.length - 1) + 1 = start + needle.length := by omega
    rw [← next] at further
    rw [List.append_cons]
    exact ih further (Nat.lt_of_not_le more)
  | case3 start found inside differ ih =>
    exact ih (greedy.of_miss (fun matched => differ (foldsAlike_iff.mpr matched))) room
  | case4 start found outside =>
    have none : all = [] := by
      apply greedy.eq_nil
      intro i after matched
      have inside := match_inside matched some_unit
      omega
    rw [none, List.append_nil, List.take_of_length_le room.le]

theorem findMatches_eq (some_unit : needle ≠ []) (greedy : Greedy (MatchesAt W text needle) needle.length 0 all) :
    FindMatches W text needle = all.take kMaxHighlightRanges := by
  rw [FindMatches]
  split_ifs with nothing
  · have none : all = [] := by
      apply greedy.eq_nil
      intro i _ matched
      have inside := match_inside matched some_unit
      rcases nothing with empty | longer
      · exact some_unit (List.isEmpty_iff.mp empty)
      · omega
    rw [none, List.take_nil]
  · exact findFrom_eq some_unit greedy (by decide)

theorem findMatches_ne_nil_iff (some_unit : needle ≠ []) :
    FindMatches W text needle ≠ [] ↔ ∃ i, MatchesAt W text needle i := by
  obtain ⟨all, greedy⟩ := greedy_exists W text some_unit 0
  have capped : all.take kMaxHighlightRanges ≠ [] ↔ all ≠ [] := by
    rw [ne_eq, List.take_eq_nil_iff]
    simp [kMaxHighlightRanges]
  rw [findMatches_eq some_unit greedy, capped, greedy.ne_nil_iff]

theorem head_findMatches (some_unit : needle ≠ []) (matched : FirstMatch W text needle first) :
    (FindMatches W text needle).head? = some first := by
  obtain ⟨all, greedy⟩ := greedy_exists W text some_unit 0
  rw [findMatches_eq some_unit greedy]
  cases all with
  | nil => exact absurd rfl (greedy.ne_nil_iff.mpr ⟨first, matched.here⟩)
  | cons head rest =>
    obtain ⟨found, least⟩ := greedy.head_least (List.head?_cons)
    have same : head = first := by
      rcases Nat.lt_trichotomy head first with early | same | late
      · exact absurd found (matched.least head early)
      · exact same
      · exact absurd matched.here (least first late)
    rw [same]
    rfl

theorem row_shows (some_unit : needle ≠ []) (matched : FirstMatch W text needle first) :
    MatchesAt W (ReWindowRowText W text needle) needle
      (if first > kRowMatchLeadChars then kRowMatchLeadChars + 1 else first) := by
  have given : ¬ needle.isEmpty = true := by simpa using some_unit
  rw [ReWindowRowText, if_neg given, head_findMatches some_unit matched]
  by_cases far : first > kRowMatchLeadChars
  · simp only [if_pos far]
    have within := match_inside matched.here some_unit
    have covered : first + needle.length ≤ first - kRowMatchLeadChars + text.length := by omega
    have shown := match_shown matched.here (Nat.sub_le first kRowMatchLeadChars) covered (ellipsis W) []
    rw [List.append_nil, List.take_of_length_le (by rw [List.length_drop]; omega)] at shown
    have place : (ellipsis W).length + (first - (first - kRowMatchLeadChars)) = kRowMatchLeadChars + 1 := by
      rw [ellipsis, List.length_singleton]
      omega
    rwa [place] at shown
  · simp only [if_neg far]
    exact matched.here

theorem region_start (some_unit : needle ≠ []) (matched : FirstMatch W text needle first) :
    (regionAround W text needle).start = first - kPreviewLeadChars := by
  have given : ¬ needle.isEmpty = true := by simpa using some_unit
  rw [regionAround, if_neg given, head_findMatches some_unit matched]
  simp only
  split_ifs with far <;> omega

theorem region_shown (text needle : List U) : (regionAround W text needle).shown =
    (text.drop (regionAround W text needle).start).take kPreviewWindowChars := rfl

/-- The flyout's region covers the first match if and only if the needle, behind its lead, fits the window. -/
theorem region_covers_iff (some_unit : needle ≠ []) (matched : FirstMatch W text needle first) :
    (regionAround W text needle).Covers needle first ↔
      min first kPreviewLeadChars + needle.length ≤ kPreviewWindowChars := by
  have within := match_inside matched.here some_unit
  have positive := List.length_pos_iff.mpr some_unit
  rw [Region.Covers, region_shown, region_start some_unit matched, List.length_take, List.length_drop]
  omega

theorem window_shows (matched : MatchesAt W text needle first) (covers : (regionAround W text needle).Covers needle first) :
    ∃ i, MatchesAt W (WindowAroundFirstMatch W text needle) needle i := by
  rw [WindowAroundFirstMatch]
  simp only [region_shown]
  have bounded : (regionAround W text needle).shown.length ≤ kPreviewWindowChars := List.length_take_le _ _
  have upto : first + needle.length ≤ (regionAround W text needle).start + kPreviewWindowChars := by
    have until_end := covers.2
    omega
  exact ⟨_, match_shown matched covers.1 upto _ _⟩

end ClippProof.Popup

namespace ClippModel.Popup

open ClippModel.Platform

variable {U : Type} [DecidableEq U]

/-- The search, the filter and the row line agree on a text and a needle. -/
structure TextMatchesAgree (W : WideChar U) (text needle : List U) : Prop where
  filter : FindMatches W text needle ≠ [] ↔ ContainsInsensitive W text needle = true
  greedy : ∃ all, Greedy (MatchesAt W text needle) needle.length 0 all ∧
    FindMatches W text needle = all.take kMaxHighlightRanges
  inside : ∀ i ∈ FindMatches W text needle, MatchesAt W text needle i ∧ i + needle.length ≤ text.length
  apart : (FindMatches W text needle).Pairwise fun i j => i + needle.length ≤ j
  row : ∀ first, FirstMatch W text needle first →
    MatchesAt W (ReWindowRowText W text needle) needle (if first > kRowMatchLeadChars then kRowMatchLeadChars + 1 else first)
  row_found : ContainsInsensitive W text needle = true → FindMatches W (ReWindowRowText W text needle) needle ≠ []

/-- The flyout keeps the first match in full, so that it is found there. -/
def FlyoutKeepsMatch (W : WideChar U) (text needle : List U) : Prop :=
  ∀ first, FirstMatch W text needle first → (regionAround W text needle).Covers needle first ∧
    FindMatches W (WindowAroundFirstMatch W text needle) needle ≠ []

end ClippModel.Popup

namespace ClippProof.Popup

open ClippModel.Platform ClippModel.Popup

variable {U : Type} [DecidableEq U] {W : WideChar U} {text needle : List U} {start first : Nat} {all found : List Nat}

theorem contains_iff_matches : ContainsInsensitive W text needle = true ↔ ∃ i, MatchesAt W text needle i := by
  rw [containsInsensitive_iff, infix_iff_occursAt]
  rfl

theorem text_matches_agree (W : WideChar U) (text : List U) (some_unit : needle ≠ []) : TextMatchesAgree W text needle := by
  obtain ⟨all, greedy⟩ := greedy_exists W text some_unit 0
  have found := findMatches_eq some_unit greedy
  constructor
  · rw [findMatches_ne_nil_iff some_unit, contains_iff_matches]
  · exact ⟨all, greedy, found⟩
  · intro i member
    rw [found] at member
    have matched := (greedy.hits i (List.mem_of_mem_take member)).1
    exact ⟨matched, match_inside matched some_unit⟩
  · rw [found]
    exact greedy.apart.sublist (List.take_sublist _ _)
  · intro first matched
    exact row_shows some_unit matched
  · intro contained
    obtain ⟨i, matched⟩ := contains_iff_matches.mp contained
    obtain ⟨first, firstMatch⟩ := firstMatch_exists matched
    exact (findMatches_ne_nil_iff some_unit).mpr ⟨_, row_shows some_unit firstMatch⟩

theorem flyout_keeps_iff (some_unit : needle ≠ []) : FlyoutKeepsMatch W text needle ↔
    ∀ first, FirstMatch W text needle first → min first kPreviewLeadChars + needle.length ≤ kPreviewWindowChars := by
  constructor
  · intro keeps first matched
    exact (region_covers_iff some_unit matched).mp (keeps first matched).1
  · intro fits first matched
    have covers := (region_covers_iff some_unit matched).mpr (fits first matched)
    exact ⟨covers, (findMatches_ne_nil_iff some_unit).mpr (window_shows matched.here covers)⟩

/-- Filter, highlights and rows agree on every text; the flyout does as far as the needle fits its window. -/
theorem text_views_agree (W : WideChar U) (text needle : List U) (some_unit : needle ≠ []) :
    TextMatchesAgree W text needle ∧ (FlyoutKeepsMatch W text needle ↔
      ∀ first, FirstMatch W text needle first → min first kPreviewLeadChars + needle.length ≤ kPreviewWindowChars) :=
  ⟨text_matches_agree W text some_unit, flyout_keeps_iff some_unit⟩

theorem text_views_agree_word : TextMatchesAgree wchar16 [0x61, 0x42, 0x62, 0x61, 0x62] [0x41, 0x62] ∧
    (FlyoutKeepsMatch wchar16 [0x61, 0x42, 0x62, 0x61, 0x62] [0x41, 0x62] ↔
      ∀ first, FirstMatch wchar16 [0x61, 0x42, 0x62, 0x61, 0x62] [0x41, 0x62] first →
        min first kPreviewLeadChars + [(0x41 : UInt16), 0x62].length ≤ kPreviewWindowChars) :=
  text_views_agree wchar16 _ _ (by decide)

theorem flyout_of_letters : WindowAroundFirstMatch wchar16 (List.replicate 2501 0x61) (List.replicate 2501 0x61) =
    List.replicate 2500 0x61 ++ [0x20, 0x2026] := by
  have given : List.replicate 2501 (0x61 : UInt16) ≠ [] := by
    rw [ne_eq, List.replicate_eq_nil_iff]
    decide
  have matched : FirstMatch wchar16 (List.replicate 2501 0x61) (List.replicate 2501 0x61) 0 :=
    ⟨List.prefix_rfl, fun i before => absurd before (Nat.not_lt_zero i)⟩
  have start := region_start given matched
  have shown : (regionAround wchar16 (List.replicate 2501 0x61) (List.replicate 2501 0x61)).shown =
      List.replicate 2500 0x61 := by
    rw [region_shown, start, Nat.zero_sub, List.drop_zero, List.take_replicate]
    rfl
  rw [WindowAroundFirstMatch]
  simp only [start, shown, List.length_replicate]
  rfl

/-- A filter of 2501 letters is found in the text that consists of it, and not in the flyout. -/
theorem flyout_loses_match : ¬ ∀ text needle : List UInt16, needle ≠ [] → ContainsInsensitive wchar16 text needle = true →
    FindMatches wchar16 (WindowAroundFirstMatch wchar16 text needle) needle ≠ [] := by
  intro every
  have given : List.replicate 2501 (0x61 : UInt16) ≠ [] := by
    rw [ne_eq, List.replicate_eq_nil_iff]
    decide
  have contained : ContainsInsensitive wchar16 (List.replicate 2501 0x61) (List.replicate 2501 0x61) = true :=
    contains_iff_matches.mpr ⟨0, List.prefix_rfl⟩
  obtain ⟨i, matched⟩ := (findMatches_ne_nil_iff given).mp (every _ _ given contained)
  rw [flyout_of_letters] at matched
  -- the flyout has one letter too few
  have fewer := (infix_iff_occursAt.mpr ⟨i, matched⟩).sublist.count_le 0x61
  have letter : FoldAscii wchar16 0x61 = 0x61 := by decide
  have marker : List.count 0x61 ([(0x20 : UInt16), 0x2026].map (FoldAscii wchar16)) = 0 := by decide
  rw [List.map_append, List.map_replicate, List.map_replicate, letter, List.count_append, marker, List.count_replicate_self,
    List.count_replicate_self] at fewer
  omega

end ClippProof.Popup
