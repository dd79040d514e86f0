import ClangLens.Project.Words

/-!
# Quotes that are not closed

Which commands leave a quote open is told by the pieces they are made of: quoted text, escapes,
blanks, comments and plain characters, with no place of a scanner in sight. The scan of a command
gives no words for these commands and for no others.
-/

namespace ClangLens.Words

/-- Text between double quotes: each backslash stands with the character behind it. -/
inductive Quoted : List Char → Prop where
  | nil : Quoted []
  | plain {c : Char} {rest : List Char} (hquote : c ≠ '"') (hbackslash : c ≠ '\\')
      (h : Quoted rest) : Quoted (c :: rest)
  | escape {c : Char} {rest : List Char} (h : Quoted rest) : Quoted ('\\' :: c :: rest)

/-- A command, or what is left of it, ends inside a quote. A comment needs a place where a word
could start. -/
inductive Unclosed : Bool → List Char → Prop where
  | single {start : Bool} {rest : List Char} (h : '\'' ∉ rest) : Unclosed start ('\'' :: rest)
  | double {start : Bool} {rest : List Char} (h : Quoted rest) : Unclosed start ('"' :: rest)
  | doubleEscape {start : Bool} {rest : List Char} (h : Quoted rest) :
      Unclosed start ('"' :: rest ++ ['\\'])
  | afterSingle {start : Bool} {body rest : List Char} (hbody : '\'' ∉ body)
      (h : Unclosed false rest) : Unclosed start ('\'' :: body ++ '\'' :: rest)
  | afterDouble {start : Bool} {body rest : List Char} (hbody : Quoted body)
      (h : Unclosed false rest) : Unclosed start ('"' :: body ++ '"' :: rest)
  | blank {start : Bool} {c : Char} {rest : List Char} (hc : c ∈ [' ', '\t', '\n'])
      (h : Unclosed true rest) : Unclosed start (c :: rest)
  /-- A line break that is escaped leaves no trace. -/
  | escape {start : Bool} {c : Char} {rest : List Char} (h : Unclosed (start && c = '\n') rest) :
      Unclosed start ('\\' :: c :: rest)
  | comment {body rest : List Char} (hbody : '\n' ∉ body) (h : Unclosed true rest) :
      Unclosed true ('#' :: body ++ '\n' :: rest)
  | plain {start : Bool} {c : Char} {rest : List Char}
      (hc : c ∉ ['\'', '"', '\\', ' ', '\t', '\n']) (hcomment : start → c ≠ '#')
      (h : Unclosed false rest) : Unclosed start (c :: rest)

/-! ## One character -/

theorem scan_between (word : List Char) (c : Char) (rest : List Char) :
    scan .between word (c :: rest) =
      if c = '\'' then scan .single [] rest
      else if c = '"' then scan .double [] rest
      else if isBlank c then scan .between [] rest
      else if c = '#' then scan .comment [] rest
      else if c = '\\' then
        match rest with
        | [] => some ["\\"]
        | d :: rest => if d = '\n' then scan .between [] rest else scan .bare [d] rest
      else scan .bare [c] rest := by cases rest <;> rfl

theorem scan_bare (word : List Char) (c : Char) (rest : List Char) :
    scan .bare word (c :: rest) =
      if c = '\'' then scan .single word rest
      else if c = '"' then scan .double word rest
      else if isBlank c then (scan .between [] rest).map (String.ofList word.reverse :: ·)
      else if c = '\\' then
        match rest with
        | [] => some [String.ofList (c :: word).reverse]
        | d :: rest => if d = '\n' then scan .bare word rest else scan .bare (d :: word) rest
      else scan .bare (c :: word) rest := by cases rest <;> rfl

theorem scan_comment (word : List Char) (c : Char) (rest : List Char) :
    scan .comment word (c :: rest) =
      if c = '\n' then scan .between [] rest else scan .comment [] rest := by cases rest <;> rfl

theorem scan_single (word : List Char) (c : Char) (rest : List Char) :
    scan .single word (c :: rest) =
      if c = '\'' then scan .bare word rest else scan .single (c :: word) rest := by
  cases rest <;> rfl

theorem scan_double (word : List Char) (c : Char) (rest : List Char) :
    scan .double word (c :: rest) =
      if c = '"' then scan .bare word rest
      else if c = '\\' then
        match rest with
        | [] => none
        | d :: rest =>
          if d = '\n' then scan .double word rest
          else if isKept d then scan .double (d :: word) rest
          else scan .double (d :: c :: word) rest
      else scan .double (c :: word) rest := by cases rest <;> rfl

theorem isBlank_iff {c : Char} : isBlank c ↔ c ∈ [' ', '\t', '\n'] := by
  simp [isBlank, or_assoc]

theorem ne_quotes_of_isBlank {c : Char} (hc : isBlank c) : c ≠ '\'' ∧ c ≠ '"' := by
  refine ⟨?_, ?_⟩
  · rintro rfl
    exact absurd hc (by decide)
  · rintro rfl
    exact absurd hc (by decide)

/-! ## What the scan does not split -/

/-- The place outside quotes and comments. -/
def outside (start : Bool) : Place := if start then .between else .bare

theorem scan_singleQuote (start : Bool) (word rest : List Char) :
    ∃ word', scan (outside start) word ('\'' :: rest) = scan .single word' rest := by
  cases start with
  | true => exact ⟨[], (scan_between word _ rest).trans (if_pos rfl)⟩
  | false => exact ⟨word, (scan_bare word _ rest).trans (if_pos rfl)⟩

theorem scan_doubleQuote (start : Bool) (word rest : List Char) :
    ∃ word', scan (outside start) word ('"' :: rest) = scan .double word' rest := by
  have hother : '"' ≠ '\'' := by decide
  cases start with
  | true => exact ⟨[], (scan_between word _ rest).trans ((if_neg hother).trans (if_pos rfl))⟩
  | false => exact ⟨word, (scan_bare word _ rest).trans ((if_neg hother).trans (if_pos rfl))⟩

theorem scan_blank {c : Char} (hc : isBlank c) (start : Bool) (word rest : List Char)
    (h : scan .between [] rest = none) : scan (outside start) word (c :: rest) = none := by
  have hplain := ne_quotes_of_isBlank hc
  cases start with
  | true =>
    show scan .between word (c :: rest) = none
    rw [scan_between, if_neg hplain.1, if_neg hplain.2, if_pos hc, h]
  | false =>
    show scan .bare word (c :: rest) = none
    rw [scan_bare, if_neg hplain.1, if_neg hplain.2, if_pos hc, h, Option.map_none]

theorem scan_escape (start : Bool) (c : Char) (word rest : List Char) :
    ∃ word', scan (outside start) word ('\\' :: c :: rest) =
      scan (outside (start && c = '\n')) word' rest := by
  have hplain : '\\' ≠ '\'' ∧ '\\' ≠ '"' ∧ ¬ isBlank '\\' ∧ '\\' ≠ '#' := by decide
  obtain ⟨hsingle, hdouble, hblank, hhash⟩ := hplain
  cases start with
  | true =>
    have hscan : scan (outside true) word ('\\' :: c :: rest) =
        if c = '\n' then scan .between [] rest else scan .bare [c] rest := by
      show scan .between word _ = _
      rw [scan_between, if_neg hsingle, if_neg hdouble, if_neg hblank, if_neg hhash, if_pos rfl]
    by_cases hbreak : c = '\n'
    · exact ⟨[], by rw [hscan, if_pos hbreak, decide_eq_true hbreak]; rfl⟩
    · exact ⟨[c], by rw [hscan, if_neg hbreak, decide_eq_false hbreak]; rfl⟩
  | false =>
    have hscan : scan (outside false) word ('\\' :: c :: rest) =
        if c = '\n' then scan .bare word rest else scan .bare (c :: word) rest := by
      show scan .bare word _ = _
      rw [scan_bare, if_neg hsingle, if_neg hdouble, if_neg hblank, if_pos rfl]
    by_cases hbreak : c = '\n'
    · exact ⟨word, hscan.trans (if_pos hbreak)⟩
    · exact ⟨c :: word, hscan.trans (if_neg hbreak)⟩

theorem scan_plain {start : Bool} {c : Char} (hquotes : c ≠ '\'' ∧ c ≠ '"') (hblank : ¬ isBlank c)
    (hbackslash : c ≠ '\\') (hcomment : start → c ≠ '#') (word rest : List Char) :
    ∃ word', scan (outside start) word (c :: rest) = scan .bare word' rest := by
  cases start with
  | true =>
    refine ⟨[c], ?_⟩
    show scan .between word _ = _
    rw [scan_between, if_neg hquotes.1, if_neg hquotes.2, if_neg hblank, if_neg (hcomment rfl),
      if_neg hbackslash]
  | false =>
    refine ⟨c :: word, ?_⟩
    show scan .bare word _ = _
    rw [scan_bare, if_neg hquotes.1, if_neg hquotes.2, if_neg hblank, if_neg hbackslash]

theorem scan_hash (word rest : List Char) :
    scan .between word ('#' :: rest) = scan .comment [] rest := by
  have hplain : '#' ≠ '\'' ∧ '#' ≠ '"' ∧ ¬ isBlank '#' := by decide
  rw [scan_between, if_neg hplain.1, if_neg hplain.2.1, if_neg hplain.2.2, if_pos rfl]

theorem scan_double_escape (c : Char) (word rest : List Char) :
    ∃ word', scan .double word ('\\' :: c :: rest) = scan .double word' rest := by
  have hplain : '\\' ≠ '"' := by decide
  rw [scan_double, if_neg hplain, if_pos rfl]
  by_cases hbreak : c = '\n'
  · exact ⟨word, if_pos hbreak⟩
  by_cases hkept : isKept c
  · exact ⟨c :: word, (if_neg hbreak).trans (if_pos hkept)⟩
  · exact ⟨c :: '\\' :: word, (if_neg hbreak).trans (if_neg hkept)⟩

theorem scan_comment_append {body : List Char} (h : '\n' ∉ body) (word rest : List Char) :
    scan .comment word (body ++ '\n' :: rest) = scan .between [] rest := by
  induction body generalizing word with
  | nil => exact (scan_comment word _ rest).trans (if_pos rfl)
  | cons c body ih =>
    rw [List.mem_cons, not_or] at h
    rw [List.cons_append, scan_comment, if_neg (Ne.symm h.1)]
    exact ih h.2 []

theorem scan_single_append {body : List Char} (h : '\'' ∉ body) (word rest : List Char) :
    ∃ word', scan .single word (body ++ rest) = scan .single word' rest := by
  induction body generalizing word with
  | nil => exact ⟨word, rfl⟩
  | cons c body ih =>
    rw [List.mem_cons, not_or] at h
    rw [List.cons_append, scan_single, if_neg (Ne.symm h.1)]
    exact ih h.2 (c :: word)

theorem scan_double_append {body : List Char} (h : Quoted body) (word rest : List Char) :
    ∃ word', scan .double word (body ++ rest) = scan .double word' rest := by
  induction h generalizing word with
  | nil => exact ⟨word, rfl⟩
  | @plain c _ hquote hbackslash _ ih =>
    rw [List.cons_append, scan_double, if_neg hquote, if_neg hbackslash]
    exact ih (c :: word)
  | @escape c _ _ ih =>
    obtain ⟨word₁, hescape⟩ := scan_double_escape c word (_ ++ rest)
    obtain ⟨word', ih⟩ := ih word₁
    exact ⟨word', hescape.trans ih⟩

theorem scan_unclosed {start : Bool} {cs : List Char} (h : Unclosed start cs) (word : List Char) :
    scan (outside start) word cs = none := by
  induction h generalizing word with
  | @single start rest h =>
    obtain ⟨word₁, hopen⟩ := scan_singleQuote start word rest
    obtain ⟨word₂, hend⟩ := scan_single_append h word₁ []
    rw [hopen, ← List.append_nil rest, hend]
    rfl
  | @double start rest h =>
    obtain ⟨word₁, hopen⟩ := scan_doubleQuote start word rest
    obtain ⟨word₂, hend⟩ := scan_double_append h word₁ []
    rw [hopen, ← List.append_nil rest, hend]
    rfl
  | @doubleEscape start rest h =>
    obtain ⟨word₁, hopen⟩ := scan_doubleQuote start word (rest ++ ['\\'])
    obtain ⟨word₂, hend⟩ := scan_double_append h word₁ ['\\']
    rw [List.cons_append, hopen, hend]
    rfl
  | @afterSingle start body rest hbody h ih =>
    obtain ⟨word₁, hopen⟩ := scan_singleQuote start word (body ++ '\'' :: rest)
    obtain ⟨word₂, hclose⟩ := scan_single_append hbody word₁ ('\'' :: rest)
    rw [List.cons_append, hopen, hclose, scan_single, if_pos rfl]
    exact ih word₂
  | @afterDouble start body rest hbody h ih =>
    obtain ⟨word₁, hopen⟩ := scan_doubleQuote start word (body ++ '"' :: rest)
    obtain ⟨word₂, hclose⟩ := scan_double_append hbody word₁ ('"' :: rest)
    rw [List.cons_append, hopen, hclose, scan_double, if_pos rfl]
    exact ih word₂
  | @blank start c rest hc h ih =>
    exact scan_blank (isBlank_iff.mpr hc) start word rest (ih [])
  | @escape start c rest h ih =>
    obtain ⟨word', hescape⟩ := scan_escape start c word rest
    exact hescape.trans (ih word')
  | @comment body rest hbody h ih =>
    show scan .between word _ = _
    rw [List.cons_append, scan_hash, scan_comment_append hbody]
    exact ih []
  | @plain start c rest hc hcomment h ih =>
    simp only [List.mem_cons, List.not_mem_nil, or_false, not_or] at hc
    obtain ⟨hsingle, hdouble, hbackslash, hspace, htab, hbreak⟩ := hc
    have hblank : ¬ isBlank c := by simp [isBlank, hspace, htab, hbreak]
    obtain ⟨word', hplain⟩ := scan_plain ⟨hsingle, hdouble⟩ hblank hbackslash hcomment word rest
    exact hplain.trans (ih word')

/-! ## What the scan leaves open -/

/-- What is left of a command, seen from a place, ends inside a quote. -/
def EndsOpen : Place → List Char → Prop
  | .between, cs => Unclosed true cs
  | .bare, cs => Unclosed false cs
  | .comment, cs => ∃ body rest, cs = body ++ '\n' :: rest ∧ '\n' ∉ body ∧ Unclosed true rest
  | .single, cs =>
    '\'' ∉ cs ∨ ∃ body rest, cs = body ++ '\'' :: rest ∧ '\'' ∉ body ∧ Unclosed false rest
  | .double, cs =>
    Quoted cs ∨ (∃ body, cs = body ++ ['\\'] ∧ Quoted body) ∨
      ∃ body rest, cs = body ++ '"' :: rest ∧ Quoted body ∧ Unclosed false rest

theorem EndsOpen.single {start : Bool} {rest : List Char} (h : EndsOpen .single rest) :
    Unclosed start ('\'' :: rest) := by
  obtain h | ⟨body, rest, rfl, hbody, h⟩ := h
  · exact .single h
  · exact .afterSingle hbody h

theorem EndsOpen.double {start : Bool} {rest : List Char} (h : EndsOpen .double rest) :
    Unclosed start ('"' :: rest) := by
  obtain h | ⟨body, rfl, h⟩ | ⟨body, rest, rfl, hbody, h⟩ := h
  · exact .double h
  · exact .doubleEscape h
  · exact .afterDouble hbody h

theorem EndsOpen.comment {rest : List Char} (h : EndsOpen .comment rest) :
    Unclosed true ('#' :: rest) := by
  obtain ⟨body, rest, rfl, hbody, h⟩ := h
  exact .comment hbody h

theorem EndsOpen.single_cons {c : Char} {rest : List Char} (hc : c ≠ '\'')
    (h : EndsOpen .single rest) : EndsOpen .single (c :: rest) := by
  have hcons : ∀ {cs : List Char}, '\'' ∉ cs → '\'' ∉ c :: cs :=
    fun h hmem => (List.mem_cons.mp hmem).elim (Ne.symm hc) h
  obtain h | ⟨body, rest, rfl, hbody, h⟩ := h
  · exact .inl (hcons h)
  · exact .inr ⟨c :: body, rest, rfl, hcons hbody, h⟩

/-- A piece in front of what is left between double quotes. -/
theorem EndsOpen.double_append (front : List Char) {rest : List Char}
    (hfront : ∀ cs, Quoted cs → Quoted (front ++ cs)) (h : EndsOpen .double rest) :
    EndsOpen .double (front ++ rest) := by
  obtain h | ⟨body, rfl, h⟩ | ⟨body, rest, rfl, hbody, h⟩ := h
  · exact .inl (hfront _ h)
  · exact .inr (.inl ⟨front ++ body, by rw [List.append_assoc], hfront _ h⟩)
  · exact .inr (.inr ⟨front ++ body, rest, by rw [List.append_assoc], hfront _ hbody, h⟩)

theorem EndsOpen.comment_cons {c : Char} {rest : List Char} (hc : c ≠ '\n')
    (h : EndsOpen .comment rest) : EndsOpen .comment (c :: rest) := by
  obtain ⟨body, rest, rfl, hbody, h⟩ := h
  exact ⟨c :: body, rest, rfl,
    fun hmem => (List.mem_cons.mp hmem).elim (Ne.symm hc) hbody, h⟩

/-- A character outside quotes that has no meaning of its own. -/
theorem Unclosed.bare {start : Bool} {c : Char} {rest : List Char} (hsingle : c ≠ '\'')
    (hdouble : c ≠ '"') (hblank : ¬ isBlank c) (hbackslash : c ≠ '\\') (hcomment : start → c ≠ '#')
    (h : Unclosed false rest) : Unclosed start (c :: rest) := by
  rw [isBlank_iff] at hblank
  refine .plain ?_ hcomment h
  simp only [List.mem_cons, List.not_mem_nil, or_false, not_or] at hblank ⊢
  exact ⟨hsingle, hdouble, hbackslash, hblank⟩

theorem endsOpen_of_scan {place : Place} {word cs : List Char} (h : scan place word cs = none) :
    EndsOpen place cs := by
  revert h
  fun_induction scan place word cs
  -- no more characters
  case case1 | case2 | case3 | case10 | case19 => exact fun h => nomatch h
  case case4 => exact fun _ => .inl (List.not_mem_nil)
  case case5 => exact fun _ => .inl .nil
  -- between words
  case case6 ih => exact fun h => (ih h).single
  case case7 ih => exact fun h => (ih h).double
  case case8 hblank ih => exact fun h => .blank (isBlank_iff.mp hblank) (ih h)
  case case9 ih => exact fun h => (ih h).comment
  case case11 ih => exact fun h => .escape (ih h)
  case case12 hbreak _ _ _ _ ih =>
    intro h
    refine .escape ?_
    rw [decide_eq_false hbreak]
    exact ih h
  case case13 hsingle hdouble hblank hcomment hbackslash ih =>
    exact fun h => .bare hsingle hdouble hblank hbackslash (fun _ => hcomment) (ih h)
  -- in a comment
  case case14 ih => exact fun h => ⟨[], _, rfl, List.not_mem_nil, ih h⟩
  case case15 hc ih => exact fun h => (ih h).comment_cons hc
  -- in a word
  case case16 ih => exact fun h => (ih h).single
  case case17 ih => exact fun h => (ih h).double
  case case18 hblank ih =>
    exact fun h => .blank (isBlank_iff.mp hblank) (ih (Option.map_eq_none_iff.mp h))
  case case20 ih | case21 ih => exact fun h => .escape (ih h)
  case case22 hsingle hdouble hblank hbackslash ih =>
    exact fun h => .bare hsingle hdouble hblank hbackslash (fun h => nomatch h) (ih h)
  -- between single quotes
  case case23 ih => exact fun h => .inr ⟨[], _, rfl, List.not_mem_nil, ih h⟩
  case case24 hc ih => exact fun h => (ih h).single_cons hc
  -- between double quotes
  case case25 ih => exact fun h => .inr (.inr ⟨[], _, rfl, .nil, ih h⟩)
  case case26 => exact fun _ => .inr (.inl ⟨[], rfl, .nil⟩)
  case case27 ih | case28 ih | case29 ih =>
    exact fun h => (ih h).double_append ['\\', _] fun _ => .escape
  case case30 hquote hbackslash ih =>
    exact fun h => (ih h).double_append [_] fun _ => .plain hquote hbackslash

/-- **Open quotes.** Exactly the commands that end inside a quote have no words. -/
theorem split_eq_none_iff (command : String) :
    split command = none ↔ Unclosed true command.toList :=
  ⟨endsOpen_of_scan, fun h => scan_unclosed h []⟩

end ClangLens.Words
