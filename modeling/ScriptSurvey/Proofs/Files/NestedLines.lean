import ScriptSurvey.Proofs.Files.Folders

/-!
# Lines of the ignore files in folders

A line of an ignore file in a folder speaks of that folder, and its pattern, rebased to the top,
speaks of the folder only. There the pattern covers what the line covers at the top
(`rebase_below`).

* `Line.rebase_nested` and `Line.parse_nested` give the pattern of a line and its segments.
* `Line.alike_anchored` and `Line.parse_nested_alike` compare both with the line behind a slash,
  which holds at its place alone.
* `covers_empty_iff`: the folder itself is covered by stars, three or more of them, since they are
  satisfied with nothing.
-/

namespace ScriptSurvey.Ignore

open Pattern

/-! ## What a line covers in its folder -/

namespace Line

variable (l : Line)

/-- Whether the place that a line names holds at every depth. -/
def deep : Bool :=
  !(l.anchored || l.spans)

/-- The pattern of a line of the ignore file in a folder. -/
def nestedText (here : List String) : String :=
  String.ofList (mark '!' l.negated ++ ((("/".intercalate here).toList ++
    '/' :: (if l.deep then anywhere else [])) ++ l.place))

variable {here : List String} (folder : PlainFolder here)

include folder

theorem rebase_nested : rebase (String.ofList l.chars) ("/".intercalate here) =
    some (l.nestedText here) := by
  obtain ⟨c, cs, hbase⟩ := folder.exists_text_eq
  have named : "/".intercalate here ≠ "" := fun h => by simp [h] at hbase
  rw [rebase_line, if_neg named, nestedText, deep]
  cases l.anchored || l.spans <;> simp

theorem parse_nested (comment : ("/".intercalate here).toList.head? ≠ some '#') :
    parse (l.nestedText here) = ofSegments (l.nestedText here) l.negated
      (here ++ (depth l.deep ++ l.segments)) := by
  have parts : Text.splitAt '/' (String.ofList ((if l.deep then anywhere else []) ++ l.place)) =
      depth l.deep ++ l.segments := by
    cases l.deep with
    | true => exact @splitAt_name_slash ['*', '*'] (by decide) l.place
    | false => rfl
  rw [nestedText, l.parse_place, List.append_assoc, List.cons_append, folder.splitAt_append, parts]
  obtain ⟨c, cs, hbase⟩ := folder.exists_text_eq
  rintro - d hd
  obtain rfl : c = d := by simpa [hbase] using hd
  exact ⟨fun h => folder.sign (by simp [hbase, h]), fun h => comment (by simp [hbase, h])⟩

omit folder

theorem exists_segments_eq_cons : ∃ x more, x ≠ "" ∧ l.segments = x :: more := by
  obtain ⟨c, cs, hplace, hc⟩ := l.exists_place_eq
  rw [segments, hplace]
  exact exists_splitAt_eq_cons hc cs

/-- A line covers, at its place or at every depth, what it covers at the top with a slash in
front. -/
theorem alike_anchored (text : String) :
    Alike (fun q a => q.keeps = a.keeps ∧ ∀ path, IsRelative path →
        (q.covers path ↔ ∃ part, IsPart l.deep part path ∧ a.covers part))
      (parse (String.ofList l.chars)) (ofSegments text l.negated ("" :: l.segments)) := by
  have atPlace (ha : l.anchored = true ∨ l.spans = true) :
      Alike Eq (parse (String.ofList l.chars)) (ofSegments text l.negated ("" :: l.segments)) := by
    rw [parse_chars]
    cases hanchored : l.anchored with
    | true => exact ofSegments_alike _ _ _ rfl rfl
    | false =>
      have hname : ¬ l.IsName := spans_iff.mp (ha.resolve_left (by simp [hanchored]))
      obtain ⟨x, y, more, hx, hy, hsegments⟩ := exists_segments_eq hname
      rw [hsegments]
      exact ofSegments_alike _ _ _ (normalize_empty_cons hx (.inl hy)).symm rfl
  cases hd : l.deep with
  | false =>
    rw [deep, Bool.not_eq_false', Bool.or_eq_true] at hd
    refine (atPlace hd).mono ?_
    rintro q _ rfl
    exact ⟨rfl, fun path _ => by simp [IsPart]⟩
  | true =>
    simp only [deep, Bool.not_eq_true', Bool.or_eq_false_iff] at hd
    have hname : l.IsName := by simpa [hd.2] using spans_iff (l := l)
    obtain ⟨x, single⟩ := exists_isSingle hname
    rw [parse_chars, hd.1]
    exact ofSegments_single _ _ _ single

/-- A line and its pattern below a folder cover the same in the folder. -/
theorem parse_nested_alike {here : List String} (folder : PlainFolder here)
    (comment : ("/".intercalate here).toList.head? ≠ some '#')
    (hm : manyComponents ∉ l.segments) (text : String) :
    Alike (Inside ("/".intercalate here) l.deep) (parse (l.nestedText here))
      (ofSegments text l.negated ("" :: l.segments)) := by
  obtain ⟨x, more, hx, hsegments⟩ := l.exists_segments_eq_cons
  rw [l.parse_nested folder comment]
  rw [hsegments] at hm ⊢
  exact folder.ofSegments_inside hx (List.ne_of_not_mem_cons hm).symm more _ _ _ _

end Line

/-! ## Places that nothing is enough for -/

theorem matchesFrom_append_nil (items items' : List Item) :
    matchesFrom (items ++ items') [] = (matchesFrom items [] && matchesFrom items' []) := by
  induction items with
  | nil => rfl
  | cons item items ih =>
    cases item <;> simp [matchesFrom, afterRun, afterSome, afterSlash, ih]

/-- Stars alone match nothing at all. -/
theorem Reads.matchesFrom_nil {cs rest : List Char} {items : List Item} (h : Reads cs items rest)
    (hr : rest = []) : matchesFrom items [] ↔ ∀ c ∈ cs, c = '*' := by
  induction h with
  | done cs => simp [hr, matchesFrom]
  | step token _ ih =>
    cases token with
    | run cs => simpa [matchesFrom, afterRun] using ih hr
    | any | escaped | set => simp [matchesFrom]
    | @char c h cs =>
      have hc : c ≠ '*' := fun hc => h (by simp [hc])
      simp [matchesFrom, hc]

theorem covers_empty_iff {x : String} (hx : x ≠ "") (hm : x ≠ manyComponents) {more : List String}
    {text : String} {keeps : Bool} {a : Pattern}
    (h : ofSegments text keeps ("" :: x :: more) = .ok (some a)) :
    a.covers "" ↔ more = [] ∧ x ≠ "*" ∧ ∀ c ∈ x.toList, c = '*' := by
  have spelled : x :: collapse (closed more) ∉ unspelled := by
    simp [unspelled, show x ≠ "**" from hm]
  rw [ofSegments, normalize_cons hx hm, coverOf_eq _ _ spelled] at h
  obtain ⟨_, hcover, rfl⟩ := exists_of_map_eq_ok h
  obtain ⟨s, hs, -, rfl⟩ := exists_of_coverFrom_eq_ok hcover
  obtain ⟨items, stop, s', hitems, hs', hs⟩ := exists_spells_of_itemsOf hm hs
  change matchesFrom s.items [] ↔ _
  rw [hs, matchesFrom_append_nil, rowItems, if_neg Bool.false_ne_true, List.nil_append,
    matchesFrom_append_nil]
  cases more with
  | nil =>
    cases hs'
    have last : matchesFrom (if (collapse (closed [])).isEmpty then [.finish] else []) [] = true :=
      rfl
    rw [last, show matchesFrom [] [] = true from rfl, Bool.and_true, Bool.and_true]
    rw [Spells] at hitems
    split at hitems
    · next star => simp [hitems, star, matchesFrom, afterSome]
    · next star => simpa [star] using hitems.matchesFrom_nil rfl
  | cons y more =>
    have others : collapse (closed (y :: more)) ≠ [] :=
      collapse_ne_nil (closed_ne_nil (List.cons_ne_nil y more))
    have behind : matchesFrom s'.items [] = false := by
      refine Bool.eq_false_iff.mpr fun h => ?_
      obtain ⟨tail, ⟨⟩⟩ := exists_slash_of_itemsOf others hs' h
    simp [behind]

namespace Line

variable {l : Line}

/-- Whether a line names nothing but stars, of which there are three or more. -/
def IsStars (l : Line) : Prop :=
  ∃ n, l.place = List.replicate (n + 3) '*'

theorem covers_empty_iff_isStars (hm : manyComponents ∉ l.segments) {text : String} {a : Pattern}
    (h : ofSegments text l.negated ("" :: l.segments) = .ok (some a)) :
    a.covers "" ↔ l.IsStars := by
  obtain ⟨x, more, hx, hsegments⟩ := l.exists_segments_eq_cons
  have joined := intercalate_splitAt l.place
  rw [← segments, hsegments] at joined
  rw [hsegments] at hm h
  have hmany := (List.ne_of_not_mem_cons hm).symm
  rw [covers_empty_iff hx hmany h]
  constructor
  · rintro ⟨rfl, star, all⟩
    have hplace : x.toList = l.place := by simpa using joined
    obtain ⟨n, hn⟩ : ∃ n, x.toList = List.replicate n '*' := ⟨_, List.eq_replicate_of_mem all⟩
    have text : x = String.ofList (List.replicate n '*') := by rw [← hn, String.ofList_toList]
    -- one star stands for a component, two for any number of them
    obtain _ | _ | _ | n := n
    · exact absurd text hx
    · exact absurd text star
    · exact absurd text hmany
    · exact ⟨n, hplace.symm.trans hn⟩
  · rintro ⟨n, hn⟩
    have noSlash : '/' ∉ l.place := by simp [hn, List.mem_replicate]
    have single : l.segments = [String.ofList l.place] := splitAt_name noSlash
    rw [hsegments] at single
    obtain ⟨rfl, rfl⟩ := List.cons.inj single
    refine ⟨rfl, fun star => ?_, by simp [hn, List.mem_replicate]⟩
    have short : l.place.length = 1 := by simpa using congrArg (·.toList.length) star
    rw [hn, List.length_replicate] at short
    omega

end Line

/-! ## The ignore files in folders -/

/-- `p` covers in the folder `base` what `q` covers at the top, and keeps it if `q` does. -/
def Pattern.Below (base : String) (p q : Pattern) : Prop :=
  p.keeps = q.keeps ∧ ∀ path, IsRelative path → p.covers (base ++ "/" ++ path) = q.covers path

/-- The segments of a line after the mark that negates it. -/
def lineSegments (line : String) : List String :=
  Text.splitAt '/' (String.ofList (unsigned line.toList))

/-- A line of three stars or more, with or without a slash in front. -/
def OnlyStars (line : String) : Prop :=
  ∃ n, unsigned line.toList = List.replicate (n + 3) '*' ∨
    unsigned line.toList = '/' :: List.replicate (n + 3) '*'

namespace Line

variable {l : Line}

theorem not_mem_segments (h : manyComponents ∉ lineSegments (String.ofList l.chars)) :
    manyComponents ∉ l.segments := by
  rw [lineSegments, String.toList_ofList, unsigned_chars] at h
  cases ha : l.anchored with
  | true =>
    rw [ha] at h
    have cut : Text.splitAt '/' (String.ofList (mark '/' true ++ l.place)) = "" :: l.segments :=
      splitAt_name_slash List.not_mem_nil l.place
    rw [cut] at h
    exact List.not_mem_of_not_mem_cons h
  | false => rwa [ha] at h

theorem onlyStars_iff : OnlyStars (String.ofList l.chars) ↔ l.IsStars := by
  rw [OnlyStars, String.toList_ofList, unsigned_chars]
  refine exists_congr fun n => ?_
  cases l.anchored with
  | true => simp [mark, List.replicate_succ]
  | false =>
    have other : l.place ≠ '/' :: List.replicate (n + 3) '*' := fun h => l.head_ne (by rw [h]; rfl)
    simp [mark, other]

end Line

/-- **The ignore files in folders**: for a folder whose path stands for itself, every plain line
without a segment of two stars is rebased to a pattern that covers in the folder what the line
covers at the top, and keeps it if the line does. The pattern covers nothing outside the folder, and
the folder itself only if the line is made of three stars or more. -/
theorem rebase_below {here : List String} (folder : PlainFolder here)
    (comment : ("/".intercalate here).toList.head? ≠ some '#') {line : String}
    (h : PlainLine line) (hm : manyComponents ∉ lineSegments line) :
    ∃ text, rebase line ("/".intercalate here) = some text ∧
      Alike (Below ("/".intercalate here)) (parse text) (parse line) ∧
      ∀ p, parse text = .ok (some p) →
        (∀ path, p.covers path → ∃ below, path = "/".intercalate here ++ "/" ++ below) ∧
        (p.covers ("/".intercalate here ++ "/") ↔ OnlyStars line) := by
  obtain ⟨l, hl⟩ := h.exists_line
  obtain rfl : line = String.ofList l.chars := by rw [← hl, String.ofList_toList]
  have hm := Line.not_mem_segments hm
  have inside := l.parse_nested_alike folder comment hm ""
  refine ⟨l.nestedText here, l.rebase_nested folder, ?_, fun p hp => ⟨fun path hc => ?_, ?_⟩⟩
  · refine (inside.trans (l.alike_anchored "").symm).mono ?_
    rintro p q ⟨a, ⟨keeps, covers⟩, keeps', covers'⟩
    refine ⟨keeps.trans keeps'.symm, fun path hpath => ?_⟩
    rw [Bool.eq_iff_iff, covers, covers' path hpath]
  · rw [l.parse_nested folder comment] at hp
    obtain ⟨x, more, hx, hsegments⟩ := l.exists_segments_eq_cons
    refine folder.exists_below ?_ (fun _ => ?_) hp hc
    all_goals cases l.deep <;> simp [depth, hsegments, hx]
  · obtain ⟨a, ha, -, covers⟩ := inside.exists_right hp
    rw [Line.onlyStars_iff, ← Line.covers_empty_iff_isStars hm ha]
    simpa [isPart_empty] using covers ""

/-- A place that is kept, in a folder with a bracket in its name. -/
theorem rebase_below_web :
    PlainFolder ["pkg", "web]"] ∧ PlainLine "!/src/build/" ∧
      manyComponents ∉ lineSegments "!/src/build/" ∧
      ∃ text, rebase "!/src/build/" ("/".intercalate ["pkg", "web]"]) = some text ∧
        Alike (Below ("/".intercalate ["pkg", "web]"])) (parse text) (parse "!/src/build/") := by
  have folder : PlainFolder ["pkg", "web]"] := ⟨by simp, by decide, by decide⟩
  have segments : manyComponents ∉ lineSegments "!/src/build/" := by decide
  obtain ⟨text, htext, h, -⟩ := rebase_below folder (by decide) plainLine_keep_src_build segments
  exact ⟨folder, plainLine_keep_src_build, segments, text, htext, h⟩

theorem plainLine_stars : PlainLine "***" where
  names := ⟨'*', by decide, by decide⟩
  slashes := by decide +kernel
  first := by
    rintro c ⟨⟩
    decide
  last := by
    rintro c ⟨⟩
    decide

/-- Three stars in the ignore file of a folder cover the folder itself. -/
theorem rebase_stars_covers_folder :
    PlainFolder ["d"] ∧ PlainLine "***" ∧ manyComponents ∉ lineSegments "***" ∧
      rebase "***" ("/".intercalate ["d"]) = some "d/**/***" ∧
      ∃ p, parse "d/**/***" = .ok (some p) ∧ p.covers "d/" = true :=
  ⟨⟨by simp, by decide, by decide⟩, plainLine_stars, by decide, by decide, _, rfl, by decide⟩

end ScriptSurvey.Ignore
