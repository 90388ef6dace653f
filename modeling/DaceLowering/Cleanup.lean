import Mathlib.Data.List.Infix

/-!
# Cleaning up the generated code

The last step of `DaCeCodeGenerator.generate_code` rewrites the generated text line by
line: it drops blank lines and lines that start with `;`, a label line whose label no
`goto` names, and a label line together with the kept line before it when that line holds
the label's only `goto`.  A Python string is modelled as its list of code points, and each
of the three regular expressions as the function it computes.

Every line the clean-up returns is a line of the input, in order and unchanged
(`cleanupCode_eq_kept`); but the pattern for an empty statement only looks at the first
character after the indentation, and the `goto` test looks for the `goto` anywhere in the
previous line, so lines with real statements can be dropped.
-/

namespace DaceLowering

/-! ### Character classes and patterns -/

/-- `str.isspace()` of one character, which is what `str.strip()` removes and what `\s`
    matches in a `str` pattern: the characters of bidirectional class WS, B or S, and those
    of category Zs. -/
def pyIsSpace (c : Char) : Bool :=
  let n := c.toNat
  (0x09 ≤ n && n ≤ 0x0D) || (0x1C ≤ n && n ≤ 0x20) || n == 0x85 || n == 0xA0 ||
    n == 0x1680 || (0x2000 ≤ n && n ≤ 0x200A) || n == 0x2028 || n == 0x2029 ||
    n == 0x202F || n == 0x205F || n == 0x3000

/-- `[a-zA-Z_]` -/
def isIdentStart (c : Char) : Bool := c.isAlpha || c == '_'

/-- `[a-zA-Z_0-9]` -/
def isIdentChar (c : Char) : Bool := isIdentStart c || c.isDigit

/-- A match of `goto (.*?);` at the start of `s`: the shortest text after `goto ` that a
    `;` follows on the same line (`.` does not match a newline), and the rest after the
    `;`. -/
def gotoAt (s : List Char) : Option (List Char × List Char) :=
  if "goto ".toList.isPrefixOf s then
    let body := s.drop 5
    let target := body.takeWhile fun c => c != ';' && c != '\n'
    match body.drop target.length with
    | ';' :: rest => some (target, rest)
    | _ => none
  else none

/-- `re.findall(r'goto (.*?);', generated_code)`: a match is tried at each position from
    the left, and the search resumes after each match.  `fuel` bounds the positions; the
    length of the text is enough. -/
def findGotos : Nat → List Char → List (List Char)
  | 0, _ => []
  | _ + 1, [] => []
  | fuel + 1, c :: rest =>
    match gotoAt (c :: rest) with
    | some (target, after) => target :: findGotos fuel after
    | none => findGotos fuel rest

/-- `not line.strip()` -/
def isBlank (line : List Char) : Bool := line.all pyIsSpace

/-- `re.match(r'^\s*;\s*', line)`: the first character after the indentation is `;`. -/
def startsWithSemicolon (line : List Char) : Bool :=
  (line.dropWhile pyIsSpace).head? == some ';'

/-- The label that `re.findall(r'^\s*([a-zA-Z_][a-zA-Z_0-9]*):\s*[;]?\s*////.*$', line)`
    captures, if any.  The line holds no newline, so `.*$` matches any rest. -/
def labelOf (line : List Char) : Option (List Char) :=
  match line.dropWhile pyIsSpace with
  | [] => none
  | c :: rest =>
    if isIdentStart c then
      match rest.dropWhile isIdentChar with
      | ':' :: after =>
        let spaced := after.dropWhile pyIsSpace
        let comment := match spaced with
          | ';' :: more => more.dropWhile pyIsSpace
          | _ => spaced
        if "////".toList.isPrefixOf comment then some (c :: rest.takeWhile isIdentChar)
        else none
      | _ => none
    else none

/-! ### The loop -/

/-- The variables of the loop, `clean_code` and `last_line`. -/
structure Cleanup where
  cleanCode : List Char := []
  lastLine : List Char := []
  deriving DecidableEq, Repr

/-- The body of the loop for one line; `gotos` is the list `findall` returned, and
    `goto_ctr[l]` is the number of times `l` occurs in it.  `clean_code[:-k]` keeps all
    but the last `k` characters. -/
def cleanupLine (gotos : List (List Char)) (st : Cleanup) (line : List Char) : Cleanup :=
  let keep : Cleanup := ⟨st.cleanCode ++ line ++ ['\n'], line⟩
  if isBlank line then st
  else if startsWithSemicolon line then st
  else
    match labelOf line with
    | none => keep
    | some l =>
      if l ∉ gotos then { st with lastLine := [] }
      else if ("goto ".toList ++ l ++ [';']) <:+: st.lastLine ∧ gotos.count l = 1 then
        ⟨st.cleanCode.take (st.cleanCode.length - (st.lastLine.length + 1)), []⟩
      else keep

/-- The clean-up at the end of `generate_code`: `clean_code` after the loop over
    `generated_code.split('\n')`. -/
def cleanupCode (text : List Char) : List Char :=
  ((text.splitOn '\n').foldl (cleanupLine (findGotos text.length text)) {}).cleanCode

/-! ### What the clean-up keeps -/

/-- A line the clean-up may keep: not blank, and not starting with `;`. -/
def Keepable (line : List Char) : Prop := isBlank line = false ∧ startsWithSemicolon line = false

/-- The loop's invariant: `clean_code` holds the kept lines, each with its newline, and
    `last_line` is empty or the last of them. -/
def Cleanup.Holds (st : Cleanup) (kept : List (List Char)) : Prop :=
  st.cleanCode = (kept.map (· ++ ['\n'])).flatten ∧
    (st.lastLine = [] ∨ kept.getLast? = some st.lastLine)

/-- One line keeps the invariant: the kept lines become a sublist of the old ones with the
    new line, and the deletion of `clean_code[:-len(last_line) - 1]` drops exactly the
    last kept line. -/
theorem cleanupLine_holds (gotos : List (List Char)) {st : Cleanup} {kept : List (List Char)}
    (line : List Char) (h : st.Holds kept) (hk : ∀ l ∈ kept, Keepable l) :
    ∃ kept', kept'.Sublist (kept ++ [line]) ∧ (∀ l ∈ kept', Keepable l) ∧
      (cleanupLine gotos st line).Holds kept' := by
  obtain ⟨hcode, hlast⟩ := h
  have hkeep : isBlank line = false → startsWithSemicolon line = false →
      ∃ kept', kept'.Sublist (kept ++ [line]) ∧ (∀ l ∈ kept', Keepable l) ∧
        Cleanup.Holds ⟨st.cleanCode ++ line ++ ['\n'], line⟩ kept' := fun hb hs =>
    ⟨kept ++ [line], List.Sublist.refl _,
      by simpa [or_imp, forall_and] using And.intro hk ⟨hb, hs⟩, by simp [Cleanup.Holds, hcode]⟩
  have hsame : ∀ last, (last = [] ∨ kept.getLast? = some last) →
      ∃ kept', kept'.Sublist (kept ++ [line]) ∧ (∀ l ∈ kept', Keepable l) ∧
        Cleanup.Holds ⟨st.cleanCode, last⟩ kept' := fun last hl =>
    ⟨kept, List.sublist_append_left _ _, hk, hcode, hl⟩
  unfold cleanupLine
  by_cases hb : isBlank line
  · simpa [hb] using hsame st.lastLine hlast
  by_cases hs : startsWithSemicolon line
  · simpa [hb, hs] using hsame st.lastLine hlast
  simp only [hb, hs, Bool.false_eq_true, if_false]
  rw [Bool.not_eq_true] at hb hs
  cases hl : labelOf line with
  | none => exact hkeep hb hs
  | some l =>
    simp only
    by_cases hg : l ∈ gotos
    · rw [if_neg (not_not.2 hg)]
      split_ifs with hdel
      · obtain ⟨hinf, -⟩ := hdel
        have hne : st.lastLine ≠ [] := fun h => by simp [h] at hinf
        obtain ⟨init, rfl⟩ : ∃ init, kept = init ++ [st.lastLine] :=
          ⟨kept.dropLast, (List.dropLast_append_getLast? _ (hlast.resolve_left hne)).symm⟩
        refine ⟨init, (List.sublist_append_left _ _).trans (List.sublist_append_left _ _),
          fun l hl => hk l (List.mem_append_left _ hl), ?_, .inl rfl⟩
        simp only [hcode, List.map_append, List.flatten_append, List.map_cons, List.map_nil,
          List.flatten_cons, List.flatten_nil, List.append_nil, List.length_append,
          List.length_cons, List.length_nil]
        exact List.take_left' (by omega)
      · exact hkeep hb hs
    · rw [if_pos hg]
      exact hsame [] (.inl rfl)

/-- The loop keeps the invariant over any list of lines. -/
theorem foldl_cleanupLine_holds (gotos : List (List Char)) :
    ∀ (lines : List (List Char)) (st : Cleanup) (kept : List (List Char)), st.Holds kept →
      (∀ l ∈ kept, Keepable l) → ∃ kept', kept'.Sublist (kept ++ lines) ∧
        (∀ l ∈ kept', Keepable l) ∧ (lines.foldl (cleanupLine gotos) st).Holds kept'
  | [], st, kept, h, hk => ⟨kept, by simp, hk, h⟩
  | line :: lines, st, kept, h, hk => by
    obtain ⟨kept₁, hsub₁, hk₁, h₁⟩ := cleanupLine_holds gotos line h hk
    obtain ⟨kept', hsub, hk', h'⟩ := foldl_cleanupLine_holds gotos lines _ kept₁ h₁ hk₁
    exact ⟨kept', hsub.trans (by simpa using hsub₁.append_right lines), hk', h'⟩

/-- The clean-up returns lines of the input in their order, each unchanged and
    newline-terminated, and none of them blank or starting with `;`. -/
theorem cleanupCode_eq_kept (text : List Char) :
    ∃ kept : List (List Char), kept.Sublist (text.splitOn '\n') ∧ (∀ l ∈ kept, Keepable l) ∧
      cleanupCode text = (kept.map (· ++ ['\n'])).flatten := by
  obtain ⟨kept, hsub, hk, hcode, -⟩ :=
    foldl_cleanupLine_holds (findGotos text.length text) (text.splitOn '\n') {} []
      ⟨rfl, .inl rfl⟩ (by simp)
  exact ⟨kept, by simpa using hsub, hk, hcode⟩

/-- `; f();` is a call after an empty statement, not a label and not made of `;` and
    blanks, and the clean-up drops it.  `x = 1; goto L;` is an assignment before the only
    `goto L`, and the clean-up drops it with the label that follows. -/
theorem cleanupCode_drops_statements :
    cleanupCode "; f();".toList = [] ∧ labelOf "; f();".toList = none ∧
      ("; f();".toList.all fun c => pyIsSpace c || c == ';') = false ∧
      cleanupCode "x = 1; goto L;\nL: //// l".toList = [] := by
  decide

end DaceLowering
