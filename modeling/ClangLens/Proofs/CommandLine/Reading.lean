import ClangLens.Proofs.CommandLine.Writing
import ClangLens.Proofs.Encoding

/-!
# Reading a command line back

Every layout of an invocation is read as that invocation. Reading keeps the last value pending, so
the invariant speaks of what the words so far amount to once all is settled: each piece adds its
item to that. Items about different subjects may be added in any order, and what stands in front
and behind is put together as if it stood on one side.
-/

namespace ClangLens

/-- An item whose value can be read back. -/
def Item.Readable (item : Item) : Prop :=
  (∀ v ∈ item.value?, v ≠ []) ∧ ∀ n, item = .limit n → n < UInt64.size

namespace CommandLine

/-! ## Values -/

theorem textOf_encode (s : String) : textOf (Utf8.encode s) = .ok s := by
  rw [textOf, Utf8.decode?_encode]

theorem pathOf_bytes {p : Path} (h : p.bytes ≠ []) : pathOf p.bytes = .ok p := if_neg h

theorem toNat_digit {c : Char} (h : c.isDigit) : 48 ≤ c.toNat ∧ c.toNat ≤ 57 := by
  simp only [Char.isDigit, Bool.and_eq_true, decide_eq_true_eq, ge_iff_le,
    UInt32.le_iff_toNat_le] at h
  exact h

theorem toNat_digitByte {c : Char} (h : c.isDigit) : (UInt8.ofNat c.toNat).toNat = c.toNat := by
  have hc := toNat_digit h
  exact Utf8.toNat_ofNat_of_lt (by omega)

/-- Digits are written as one byte each. -/
theorem encode_digits {cs : List Char} (h : ∀ c ∈ cs, c.isDigit) :
    cs.flatMap String.utf8EncodeChar = cs.map fun c => UInt8.ofNat c.toNat := by
  induction cs with
  | nil => rfl
  | cons c cs ih =>
    rw [List.forall_mem_cons] at h
    have hc := (toNat_digit h.1).2
    rw [List.flatMap_cons, Utf8.encodeChar_ascii (by omega), ih h.2]
    rfl

theorem valueOf_digits {cs : List Char} (h : ∀ c ∈ cs, c.isDigit) :
    valueOf (cs.map fun c => UInt8.ofNat c.toNat) = Nat.ofDigitChars 10 cs 0 := by
  unfold valueOf Nat.ofDigitChars
  rw [List.foldl_map]
  generalize 0 = acc
  induction cs generalizing acc with
  | nil => rfl
  | cons c cs ih =>
    rw [List.forall_mem_cons] at h
    rw [List.foldl_cons, List.foldl_cons, ih h.2, toNat_digitByte h.1, Nat.mul_comm acc]
    rfl

/-- A number is read back from its decimal digits. -/
theorem numberOf_toString {bound n : Nat} (h : n < bound) :
    numberOf bound (Utf8.encode (toString n)) = .ok n := by
  have hlist : (toString n).toList = Nat.toDigits 10 n := by
    rw [Nat.toString_eq_ofList_toDigits, String.toList_ofList]
  have hdigits : ∀ c ∈ Nat.toDigits 10 n, c.isDigit :=
    fun c hc => isDigit_of_mem_toString (hlist ▸ hc)
  have hvalue : valueOf ((Nat.toDigits 10 n).map fun c => UInt8.ofNat c.toNat) = n := by
    rw [valueOf_digits hdigits, ← hlist, ofDigitChars_toString]
  have hall : ((Nat.toDigits 10 n).map fun c => UInt8.ofNat c.toNat).all isDigit := by
    rw [List.all_map, List.all_eq_true]
    intro c hc
    have hb := toNat_digitByte (hdigits c hc)
    have hc := toNat_digit (hdigits c hc)
    simp only [Function.comp_apply, isDigit, Bool.and_eq_true, decide_eq_true_eq,
      UInt8.le_iff_toNat_le, hb]
    exact hc
  unfold numberOf
  rw [textOf_encode]
  rw [Utf8.encode, hlist, encode_digits hdigits]
  revert hvalue hall
  cases hds : Nat.toDigits 10 n with
  | nil => exact absurd hds Nat.toDigits_ne_nil
  | cons c cs =>
    intro hvalue hall
    have hc : c.isDigit := hdigits c (by rw [hds]; exact List.mem_cons_self)
    have hplus : UInt8.ofNat c.toNat ≠ 43 := by
      intro h43
      have hb := toNat_digitByte hc
      have hc := toNat_digit hc
      rw [h43] at hb
      have h43 : (43 : UInt8).toNat = 43 := rfl
      omega
    rw [List.map_cons] at hvalue hall ⊢
    show (if _ then _ else _) = _
    simp only [if_neg hplus]
    rw [if_pos (by simp [hall, hvalue, h]), hvalue]
    rfl

/-! ## Items settled -/

namespace Given

/-- What is given with one more item. -/
def add (g : Given) : Item → Given
  | .compileCommands path => { g with compileCommands := some path }
  | .logLevel level => { g with logLevel := some level }
  | .logFile path => { g with logFile := some path }
  | .json => { g with json := true }
  | .limit n => { g with limit := some n }
  | .noMacros => { g with noMacros := true }
  | .patterns => { g with patterns := true }
  | .file path => { g with file := some path }
  | .line n => { g with line := some n }
  | .column n => { g with column := some n }

/-- Nothing is known yet about the subject of an option; a place may be filled again. -/
def Lacks (g : Given) : Item → Prop
  | .compileCommands _ => g.compileCommands = none
  | .logLevel _ => g.logLevel = none
  | .logFile _ => g.logFile = none
  | .json => g.json = false
  | .limit _ => g.limit = none
  | .noMacros => g.noMacros = false
  | .patterns => g.patterns = false
  | .file _ | .line _ | .column _ => True

theorem lacks_empty (item : Item) : ({} : Given).Lacks item := by
  cases item <;> first | rfl | trivial

theorem Lacks.add {g : Given} {a b : Item} (hab : a.subject ≠ b.subject) (h : g.Lacks b) :
    (g.add a).Lacks b := by
  cases a <;> cases b <;> first | exact h | exact absurd rfl hab

/-- Items about different subjects may be added in any order. -/
theorem add_comm {a b : Item} (hab : a.subject ≠ b.subject) (g : Given) :
    (g.add a).add b = (g.add b).add a := by
  cases a <;> cases b <;> first | rfl | exact absurd rfl hab

end Given

theorem bind_ok {α β : Type} (a : α) (f : α → Except UsageFault β) :
    (Except.ok a >>= f) = f a := rfl

theorem once_ok {α : Type} {old : Option α} {value : Except UsageFault α} {a : α}
    (hold : old = none) (hvalue : value = .ok a) : Given.once old value = .ok (some a) := by
  rw [hold, hvalue]
  rfl

theorem switch_ok {old : Bool} (hold : old = false) : Given.switch old = .ok true := by
  rw [hold]
  rfl

theorem toUInt32_toNat (n : UInt32) : n.toNat.toUInt32 = n := by
  rw [Nat.toUInt32_eq, UInt32.ofNat_toNat]

theorem put_line (g : Given) {w : Word} {n : UInt32}
    (hw : numberOf UInt32.size w = .ok n.toNat) :
    g.put [w] (.slot .line) = .ok { g with line := some n } := by
  show (numberOf UInt32.size w >>= fun v => pure { g with line := some v.toUInt32 }) = _
  rw [hw, bind_ok, toUInt32_toNat]
  rfl

theorem put_column (g : Given) {w : Word} {n : UInt32}
    (hw : numberOf UInt32.size w = .ok n.toNat) :
    g.put [w] (.slot .column) = .ok { g with column := some n } := by
  show (numberOf UInt32.size w >>= fun v => pure { g with column := some v.toUInt32 }) = _
  rw [hw, bind_ok, toUInt32_toNat]
  rfl

/-- The value of an item settles as that item. -/
theorem put_item {g : Given} {item : Item} (hread : item.Readable) (hlacks : g.Lacks item) :
    g.put item.value?.toList item.subject = .ok (g.add item) := by
  obtain ⟨hvalue, hlimit⟩ := hread
  cases item with
  | compileCommands path =>
    have hset := once_ok hlacks (pathOf_bytes (hvalue _ rfl))
    show (Given.once g.compileCommands (pathOf path.bytes) >>= fun v =>
      pure { g with compileCommands := v }) = _
    rw [hset]
    rfl
  | logLevel level =>
    have hset := once_ok hlacks (textOf_encode level)
    show (Given.once g.logLevel (textOf (Utf8.encode level)) >>= fun v =>
      pure { g with logLevel := v }) = _
    rw [hset]
    rfl
  | logFile path =>
    have hset := once_ok hlacks (pathOf_bytes (hvalue _ rfl))
    show (Given.once g.logFile (pathOf path.bytes) >>= fun v => pure { g with logFile := v }) = _
    rw [hset]
    rfl
  | json =>
    have hset := switch_ok hlacks
    show (Given.switch g.json >>= fun v => pure { g with json := v }) = _
    rw [hset]
    rfl
  | limit n =>
    have hset := once_ok hlacks (numberOf_toString (hlimit n rfl))
    show (Given.once g.limit (numberOf UInt64.size (Utf8.encode (toString n))) >>= fun v =>
      pure { g with limit := v }) = _
    rw [hset]
    rfl
  | noMacros =>
    have hset := switch_ok hlacks
    show (Given.switch g.noMacros >>= fun v => pure { g with noMacros := v }) = _
    rw [hset]
    rfl
  | patterns =>
    have hset := switch_ok hlacks
    show (Given.switch g.patterns >>= fun v => pure { g with patterns := v }) = _
    rw [hset]
    rfl
  | file path =>
    have hpath := pathOf_bytes (hvalue _ rfl)
    show (pathOf path.bytes >>= fun v => pure { g with file := some v }) = _
    rw [hpath]
    rfl
  | line n =>
    exact put_line g (numberOf_toString n.toNat_lt)
  | column n =>
    exact put_column g (numberOf_toString n.toNat_lt)

/-! ## Progress -/

/-- What progress amounts to once all is settled: everything is, or one value is pending that can
be. Nothing waits for a value. -/
inductive Stands : Progress → Given → List Slot → Prop where
  | settled (g : Given) (slots : List Slot) : Stands ⟨g, none, false, slots, false⟩ g slots
  | pending {g g' : Given} {subject : Subject} {ws : List Word} (slots : List Slot)
      (hsubject : subject ≠ .args) (hput : g.put ws subject = .ok g') :
      Stands ⟨g, some (subject, ws), false, slots, false⟩ g' slots

namespace Stands

variable {p : Progress} {g g' : Given} {slots : List Slot}

theorem waiting (h : Stands p g slots) : p.waiting = false := by cases h <;> rfl

theorem trailing (h : Stands p g slots) : p.trailing = false := by cases h <;> rfl

theorem slots_eq (h : Stands p g slots) : p.slots = slots := by cases h <;> rfl

theorem settle (h : Stands p g slots) : p.settle = .ok ⟨g, none, false, slots, false⟩ := by
  cases h with
  | settled => rfl
  | pending slots _ hput =>
    unfold Progress.settle
    dsimp only
    rw [hput]
    rfl

theorem put (h : Stands p g slots) {ws : List Word} {subject : Subject}
    (hput : g.put ws subject = .ok g') :
    p.put ws subject = .ok ⟨g', none, false, slots, false⟩ := by
  unfold Progress.put
  rw [h.settle]
  show (g.put ws subject >>= fun v => pure _) = _
  rw [hput]
  rfl

theorem pend (h : Stands p g slots) (ws : List Word) (subject : Subject) :
    p.pend ws subject = .ok ⟨g, some (subject, ws), false, slots, false⟩ := by
  unfold Progress.pend
  rw [h.settle]
  rfl

end Stands

/-! ## Words -/

theorem shapeOf_flag (o : OptionName) :
    shapeOf (Piece.flag o) = .long (Utf8.encode o.spelling) none := by
  cases o <;> rfl

theorem shapeOf_joined (o : OptionName) (v : Word) :
    shapeOf (Piece.flag o ++ Piece.equalsSign :: v) = .long (Utf8.encode o.spelling) (some v) := by
  cases o <;> rfl

theorem shapeOf_plain {w : Word} (h : w.head? ≠ some dash) : shapeOf w = .plain := by
  cases w with
  | nil => rfl
  | cons a w =>
    cases w with
    | nil => rfl
    | cons b rest =>
      have ha : a ≠ dash := fun hdash => h (by rw [hdash]; rfl)
      unfold shapeOf
      dsimp only
      rw [if_neg (by simp [ha]), if_neg ha]

/-- No name of a subcommand looks like an option. -/
theorem ofWord?_dash (w : Word) : CommandName.ofWord? (dash :: w) = none := by
  unfold CommandName.ofWord?
  rw [List.find?_eq_none]
  intro c _ hc
  rw [decide_eq_true_eq] at hc
  have hhead : (Utf8.encode c.spelling).head? = some dash := by rw [hc]; rfl
  revert hhead
  cases c <;> decide

theorem ofWord?_name (c : CommandName) : CommandName.ofWord? (Utf8.encode c.spelling) = some c := by
  cases c <;> decide +kernel

theorem commandAt?_dash (level : Level) (p : Progress) (w : Word) :
    commandAt? level p (dash :: w) = none := by
  unfold commandAt?
  rw [ofWord?_dash]
  split <;> rfl

theorem commandAt?_value {level : Level} {p : Progress} (h : p.waiting ∨ level.takesCommand = false)
    (w : Word) : commandAt? level p w = none := by
  unfold commandAt?
  refine if_neg ?_
  rcases h with h | h <;> simp [h]

theorem readWords_step {level : Level} {p q : Progress} {w : Word}
    (hcommand : commandAt? level p w = none) (hword : readWord level p w = .ok q)
    (rest : List Word) : readWords level p (w :: rest) = readWords level q rest := by
  rw [readWords, hcommand]
  show (readWord level p w >>= fun p => readWords level p rest) = _
  rw [hword]
  rfl

/-! ## Pieces -/

/-- An option has a value exactly if one is written. -/
theorem takesValue_eq {item : Item} {o : OptionName} (h : item.subject = .option o) :
    o.takesValue = item.value?.isSome := by
  cases item <;> cases h <;> rfl

section Pieces

variable {level : Level} {p : Progress} {g g' : Given} {slots : List Slot} {x : Piece}

theorem readWord_long {w : Word} {name : Bytes} {value : Option Word}
    (htrailing : p.trailing = false) (hshape : shapeOf w = .long name value) :
    readWord level p w = readLong level p name value := by
  unfold readWord
  rw [htrailing, if_neg Bool.false_ne_true, hshape]

theorem readWord_plain {w : Word} (htrailing : p.trailing = false) (hshape : shapeOf w = .plain) :
    readWord level p w = readPlain level p w := by
  unfold readWord
  rw [htrailing, if_neg Bool.false_ne_true, hshape]

/-- An option is read, however it is written. -/
theorem readWords_option {o : OptionName} (hstands : Stands p g slots) (hx : x.Writable)
    (ho : x.item.subject = .option o) (hlevel : level.option? (Utf8.encode o.spelling) = some o)
    (hput : g.put x.item.value?.toList x.item.subject = .ok g') (rest : List Word) :
    ∃ q, readWords level p (x.words ++ rest) = readWords level q rest ∧ Stands q g' slots := by
  have htakes := takesValue_eq ho
  rw [ho] at hput
  unfold Piece.words
  rw [ho]
  cases hvalue : x.item.value? with
  | none =>
    -- the name alone
    rw [hvalue] at hput htakes
    have hword : readWord level p (Piece.flag o) = .ok ⟨g', none, false, slots, false⟩ := by
      rw [readWord_long hstands.trailing (shapeOf_flag o), readLong, hlevel]
      dsimp only
      rw [htakes]
      exact hstands.put hput
    exact ⟨_, readWords_step (commandAt?_dash level p _) hword rest, .settled g' slots⟩
  | some v =>
    rw [hvalue] at hput htakes
    dsimp only
    split
    next hjoined =>
      have hword : readWord level p (Piece.flag o ++ Piece.equalsSign :: v) =
          .ok ⟨g', none, false, slots, false⟩ := by
        rw [readWord_long hstands.trailing (shapeOf_joined o v), readLong, hlevel]
        dsimp only
        rw [htakes]
        exact hstands.put hput
      exact ⟨_, readWords_step (commandAt?_dash level p _) hword rest, .settled g' slots⟩
    next hjoined =>
      -- the name leaves the option waiting, and the next word becomes its value
      have hname : readWord level p (Piece.flag o) =
          .ok ⟨g, some (.option o, []), true, slots, false⟩ := by
        rw [readWord_long hstands.trailing (shapeOf_flag o), readLong, hlevel]
        dsimp only
        rw [htakes]
        show (p.pend [] (.option o) >>= fun q => pure { q with waiting := true }) = _
        rw [hstands.pend]
        rfl
      have hplain : shapeOf v = .plain := by
        refine shapeOf_plain fun hdash => hjoined ?_
        exact ((hx v hvalue).2 hdash).1
      have hword : readWord level ⟨g, some (.option o, []), true, slots, false⟩ v =
          .ok ⟨g, some (.option o, [v]), false, slots, false⟩ := by
        rw [readWord_plain rfl hplain]
        rfl
      refine ⟨_, ?_, .pending slots Subject.noConfusion hput⟩
      show readWords level p (Piece.flag o :: v :: rest) = _
      have hcommand : commandAt? level p (Piece.flag o) = none := commandAt?_dash level p _
      rw [readWords_step hcommand hname, readWords_step (commandAt?_value (.inl rfl) v) hword]
      rfl

/-- A value with a place is read into the next free one. -/
theorem readWords_slot {slot : Slot} (hstands : Stands p g (slot :: slots)) (hx : x.Writable)
    (hslot : x.item.subject = .slot slot) (hlevel : level.takesCommand = false)
    (hput : g.put x.item.value?.toList x.item.subject = .ok g') (rest : List Word) :
    ∃ q, readWords level p (x.words ++ rest) = readWords level q rest ∧ Stands q g' slots := by
  obtain ⟨v, hvalue⟩ : ∃ v, x.item.value? = some v := by
    cases hitem : x.item <;> rw [hitem] at hslot <;> cases hslot <;> exact ⟨_, rfl⟩
  rw [hslot, hvalue] at hput
  have hplain : shapeOf v = .plain := by
    refine shapeOf_plain fun hdash => ?_
    have hnone := ((hx v hvalue).2 hdash).2
    unfold Item.slot? at hnone
    rw [hslot] at hnone
    cases hnone
  have hword : readWord level p v = .ok ⟨g, some (.slot slot, [v]), false, slots, false⟩ := by
    rw [readWord_plain hstands.trailing hplain, readPlain, hstands.waiting, hstands.slots_eq]
    show (p.pend [v] (.slot slot) >>= fun q => pure { q with slots := slots }) = _
    rw [hstands.pend]
    rfl
  refine ⟨_, ?_, .pending slots Subject.noConfusion hput⟩
  unfold Piece.words
  rw [hslot, hvalue]
  exact readWords_step (commandAt?_value (.inr hlevel) v) hword rest

end Pieces

/-- A side of the subcommand knows the option of an item; it has places only if no subcommand is
named there. -/
def Takes (level : Level) (item : Item) : Prop :=
  match item.subject with
  | .option o => level.option? (Utf8.encode o.spelling) = some o
  | .slot _ => level.takesCommand = false
  | .args => False

/-- **Pieces.** Each piece adds its item to what is given, and the places are filled in order. -/
theorem readWords_pieces {level : Level} (slots : List Slot) (rest : List Word)
    (pieces : List Piece) {p : Progress} {g : Given}
    (hstands : Stands p g ((pieces.map Piece.item).filterMap Item.slot? ++ slots))
    (hwritable : ∀ x ∈ pieces, x.Writable) (hreadable : ∀ x ∈ pieces, x.item.Readable)
    (htakes : ∀ x ∈ pieces, Takes level x.item)
    (hnodup : ((pieces.map Piece.item).map Item.subject).Nodup) (hlacks : ∀ x ∈ pieces, g.Lacks x.item) :
    ∃ q, readWords level p (pieces.flatMap Piece.words ++ rest) = readWords level q rest ∧
      Stands q ((pieces.map Piece.item).foldl Given.add g) slots := by
  induction pieces generalizing p g with
  | nil => exact ⟨p, rfl, hstands⟩
  | cons x pieces ih =>
    rw [List.forall_mem_cons] at hwritable hreadable htakes hlacks
    rw [List.map_cons, List.map_cons, List.nodup_cons] at hnodup
    have hput := put_item hreadable.1 hlacks.1
    have hlacks' : ∀ y ∈ pieces, (g.add x.item).Lacks y.item := by
      intro y hy
      refine (hlacks.2 y hy).add fun hsubject => hnodup.1 ?_
      exact List.mem_map.mpr ⟨y.item, List.mem_map_of_mem hy, hsubject.symm⟩
    have hone : ∃ q, readWords level p (x.words ++ (pieces.flatMap Piece.words ++ rest)) =
          readWords level q (pieces.flatMap Piece.words ++ rest) ∧
        Stands q (g.add x.item) ((pieces.map Piece.item).filterMap Item.slot? ++ slots) := by
      have htakes := htakes.1
      unfold Takes at htakes
      rw [List.map_cons, List.filterMap_cons] at hstands
      unfold Item.slot? at hstands
      split at htakes
      next o ho =>
        rw [ho] at hstands
        exact readWords_option hstands hwritable.1 ho htakes hput _
      next slot hslot =>
        rw [hslot] at hstands
        exact readWords_slot hstands hwritable.1 hslot htakes hput _
      next => exact htakes.elim
    obtain ⟨q, hread, hq⟩ := hone
    obtain ⟨r, hrest, hr⟩ := ih hq hwritable.2 hreadable.2 htakes.2 hnodup.2 hlacks'
    refine ⟨r, ?_, hr⟩
    rw [List.flatMap_cons, List.append_assoc, hread, hrest]

/-! ## Arguments -/

theorem mapM_textOf (args : List String) : (args.map Utf8.encode).mapM textOf = .ok args := by
  induction args with
  | nil => rfl
  | cons s args ih =>
    rw [List.map_cons, List.mapM_cons, textOf_encode, ih]
    rfl

/-- Words behind two dashes are kept as they are. -/
theorem readWords_trailing {level : Level} (hargs : level.takesArgs)
    (hcommand : level.takesCommand = false) (g : Given) (ws more : List Word) :
    readWords level ⟨g, some (.args, ws), false, [], true⟩ more =
      .ok (⟨g, some (.args, ws ++ more), false, [], true⟩, none) := by
  induction more generalizing ws with
  | nil =>
    rw [List.append_nil]
    rfl
  | cons w more ih =>
    have hword : readWord level ⟨g, some (.args, ws), false, [], true⟩ w =
        .ok ⟨g, some (.args, ws ++ [w]), false, [], true⟩ := by
      unfold readWord readTrailing
      rw [if_pos rfl, if_pos hargs]
    rw [readWords_step (commandAt?_value (.inr hcommand) w) hword, ih, List.append_assoc]
    rfl

/-- The first of them settles what was pending. -/
theorem readTrailing_first {level : Level} {p : Progress} {g : Given} {slots : List Slot}
    (hstands : Stands p g slots) (hargs : level.takesArgs) (w : Word) :
    readTrailing level { p with trailing := true } w =
      .ok ⟨g, some (.args, [w]), false, slots, true⟩ := by
  unfold readTrailing
  rw [if_pos hargs]
  cases hstands with
  | settled => rfl
  | pending slots hsubject hput =>
    rename_i g₀ subject ws
    have hpend : Progress.pend ⟨g₀, some (subject, ws), false, slots, true⟩ [w] .args =
        .ok ⟨g, some (.args, [w]), false, slots, true⟩ := by
      unfold Progress.pend Progress.settle
      dsimp only
      rw [hput]
      rfl
    cases subject with
    | args => exact absurd rfl hsubject
    | option o => exact hpend
    | slot slot => exact hpend

/-- The arguments, if there are any, come after all else is settled. -/
theorem readWords_arguments {level : Level} {p : Progress} {g : Given} (hstands : Stands p g [])
    (hcommand : level.takesCommand = false) {args : List String}
    (hargs : args ≠ [] → level.takesArgs) (hg : g.args = []) :
    ∃ q q', readWords level p (argumentWords args) = .ok (q, none) ∧ q.settle = .ok q' ∧
      q'.given = { g with args := args } := by
  cases args with
  | nil =>
    refine ⟨p, _, rfl, hstands.settle, ?_⟩
    rw [← hg]
  | cons s args =>
    have hargs := hargs (List.cons_ne_nil s args)
    have hescape : readWord level p [dash, dash] = .ok { p with trailing := true } := by
      unfold readWord
      rw [hstands.trailing]
      rfl
    have hfirst : readWord level { p with trailing := true } (Utf8.encode s) =
        .ok ⟨g, some (.args, [Utf8.encode s]), false, [], true⟩ := by
      unfold readWord
      rw [if_pos rfl]
      exact readTrailing_first hstands hargs _
    have hput : g.put ((s :: args).map Utf8.encode) .args = .ok { g with args := s :: args } := by
      show ((s :: args).map Utf8.encode).mapM textOf >>= (fun v => pure { g with args := v }) = _
      rw [mapM_textOf]
      rfl
    refine ⟨⟨g, some (.args, (s :: args).map Utf8.encode), false, [], true⟩,
      ⟨{ g with args := s :: args }, none, false, [], true⟩, ?_, ?_, rfl⟩
    · have hdashes : commandAt? level p [dash, dash] = none := commandAt?_dash level p _
      show readWords level p ([dash, dash] :: Utf8.encode s :: args.map Utf8.encode) = _
      rw [readWords_step hdashes hescape, readWords_step (commandAt?_value (.inr hcommand) _) hfirst,
        readWords_trailing hargs hcommand]
      rfl
    · unfold Progress.settle
      dsimp only
      rw [hput]
      rfl

end CommandLine

end ClangLens
