import ClangLens.Log.Settings
import ClangLens.Proofs.Decoding
import ClangLens.Proofs.Path.FileNames

/-!
# Logs of one's own

A process can put its number into the name of the file that it logs to, in front of the extension
or, where there is none, behind the name. The file then lies where the configured one would and has
its extension. Where names do not end in a dot, the number and the name can both be read off again,
so no two processes and no two configured files have such a file in common.
-/

namespace ClangLens

namespace Path

variable {name name' stem extension front front' back back' tag tag' : Bytes}

/-! ## Stem and extension -/

theorem splitLastDot_of_not_mem (h : dot ∉ name) : splitLastDot name = none := by
  have htail : name.reverse.takeWhile (· ≠ dot) = name.reverse :=
    takeWhile_ne_eq_self fun hdot => h (List.mem_reverse.mp hdot)
  simp only [splitLastDot, htail, List.reverse_reverse, lt_self_iff_false, if_false]

theorem splitLastDot_append (front : Bytes) (h : dot ∉ back) :
    splitLastDot (front ++ dot :: back) = some (front, back) := by
  have htail : (front ++ dot :: back).reverse.takeWhile (· ≠ dot) = back.reverse := by
    rw [List.reverse_append, List.reverse_cons, List.append_assoc, List.singleton_append]
    exact takeWhile_ne (fun hdot => h (List.mem_reverse.mp hdot)) front.reverse
  have hlength : (front ++ dot :: back).length = front.length + 1 + back.length := by
    rw [List.length_append, List.length_cons]
    omega
  have hfront : front.length + 1 + back.length - back.length - 1 = front.length := by omega
  simp only [splitLastDot, htail, List.reverse_reverse, hlength]
  rw [if_pos (by omega), hfront, List.take_left]

/-- A name tells what is in front of its last dot and what is behind it. -/
theorem lastDot_inj (h : dot ∉ back) (h' : dot ∉ back')
    (heq : front ++ dot :: back = front' ++ dot :: back') : front = front' ∧ back = back' := by
  have hsplit := congrArg splitLastDot heq
  rw [splitLastDot_append front h, splitLastDot_append front' h'] at hsplit
  simpa using hsplit

theorem exists_lastDot (h : dot ∈ name) :
    ∃ front back, name = front ++ dot :: back ∧ dot ∉ back := by
  obtain ⟨back, front, hname, hback⟩ := List.eq_append_cons_of_mem (List.mem_reverse.mpr h)
  refine ⟨front.reverse, back.reverse, ?_, fun hdot => hback (List.mem_reverse.mp hdot)⟩
  rw [← List.reverse_reverse name, hname]
  simp

/-- The stem and the extension that a file name is cut into. -/
inductive Cut : Bytes → Bytes → Option Bytes → Prop where
  /-- The only dot is one that starts the name. -/
  | whole {name : Bytes} (h : dot ∉ name.tail) : Cut name name none
  | atDot {stem extension : Bytes} (hstem : stem ≠ []) (h : dot ∉ extension) :
      Cut (stem ++ dot :: extension) stem (some extension)

theorem cutExtension_append (hstem : stem ≠ []) (h : dot ∉ extension) :
    cutExtension (stem ++ dot :: extension) = (stem, some extension) := by
  rw [cutExtension, splitLastDot_append stem h]
  exact if_neg hstem

theorem cut_cutExtension (name : Bytes) :
    Cut name (cutExtension name).1 (cutExtension name).2 := by
  by_cases h : dot ∈ name
  · obtain ⟨stem, extension, rfl, hextension⟩ := exists_lastDot h
    by_cases hstem : stem = []
    · subst hstem
      rw [cutExtension, splitLastDot_append [] hextension]
      exact .whole hextension
    · rw [cutExtension_append hstem hextension]
      exact .atDot hstem hextension
  · rw [cutExtension, splitLastDot_of_not_mem h]
    exact .whole fun hdot => h (List.mem_of_mem_tail hdot)

theorem Cut.stem_ne_nil {extension : Option Bytes} (h : Cut name stem extension)
    (hname : name ≠ []) : stem ≠ [] := by
  cases h with
  | whole => exact hname
  | atDot hstem => exact hstem

/-! ## A tag in front of the extension -/

/-- An extension behind its dot. An empty one is left out, with the dot. -/
def suffix : Option Bytes → Bytes
  | none => []
  | some extension => if extension = [] then [] else dot :: extension

/-- A file name with a tag behind its stem. -/
def taggedName (name tag : Bytes) : Bytes :=
  (cutExtension name).1 ++ dot :: (tag ++ suffix (cutExtension name).2)

/-- Bytes without a dot and without a slash, so that they stay one part of a file name. -/
structure IsTag (tag : Bytes) : Prop where
  ne_nil : tag ≠ []
  dot_not_mem : dot ∉ tag
  separator_not_mem : separator ∉ tag

/-- Tags are told apart by what they make of one name, whatever the name. -/
theorem tag_inj (h : taggedName name tag = taggedName name tag') : tag = tag' := by
  have hbehind := List.append_cancel_left h
  exact List.append_cancel_right (List.cons.inj hbehind).2

theorem Cut.not_mem {extension : Option Bytes} {b : UInt8} (h : Cut name stem extension)
    (hname : b ∉ name) (hb : b ≠ dot) : b ∉ stem ∧ b ∉ suffix extension := by
  cases h with
  | whole => exact ⟨hname, List.not_mem_nil⟩
  | @atDot _ extension =>
    simp only [List.mem_append, List.mem_cons, not_or] at hname
    refine ⟨hname.1, ?_⟩
    by_cases hextension : extension = []
    · simp [suffix, hextension]
    · simp [suffix, hextension, hb, hname.2.2]

theorem isName_taggedName (hname : IsName name) (htag : IsTag tag) :
    IsName (taggedName name tag) := by
  have hcut := cut_cutExtension name
  obtain ⟨hstem, hsuffix⟩ := hcut.not_mem hname.separator_not_mem (by decide)
  refine isName_of_length ?_ ?_
  · simp only [taggedName, List.mem_append, List.mem_cons, not_or]
    exact ⟨hstem, by decide, htag.separator_not_mem, hsuffix⟩
  · have hlength := List.length_pos_of_ne_nil (hcut.stem_ne_nil hname.ne_nil)
    have htaglength := List.length_pos_of_ne_nil htag.ne_nil
    simp only [taggedName, List.length_append, List.length_cons]
    omega

/-- The extension of a name that does not end in a dot stays behind a dot of its own. -/
theorem taggedName_cases (tag : Bytes) (hname : name.getLast? ≠ some dot) :
    dot ∉ name.tail ∧ taggedName name tag = name ++ dot :: tag ∨
      ∃ stem extension, stem ≠ [] ∧ dot ∉ extension ∧ name = stem ++ dot :: extension ∧
        taggedName name tag = (stem ++ dot :: tag) ++ dot :: extension := by
  have hcut := cut_cutExtension name
  unfold taggedName
  generalize (cutExtension name).1 = stem, (cutExtension name).2 = extension at hcut
  cases hcut with
  | whole h => exact .inl ⟨h, by simp [suffix]⟩
  | @atDot _ extension hstem h =>
    have hextension : extension ≠ [] := by
      rintro rfl
      exact hname (by simp)
    exact .inr ⟨stem, extension, hstem, h, rfl, by simp [suffix, hextension]⟩

theorem cut_taggedName (h : Cut name stem (some extension)) (hne : extension ≠ [])
    (tag : Bytes) : Cut (taggedName name tag) (stem ++ dot :: tag) (some extension) := by
  cases h with
  | atDot hstem hdot =>
    have hbehind : taggedName (stem ++ dot :: extension) tag =
        (stem ++ dot :: tag) ++ dot :: extension := by
      simp [taggedName, cutExtension_append hstem hdot, suffix, hne]
    rw [hbehind]
    exact .atDot (by simp) hdot

theorem dot_mem_tail (hstem : stem ≠ []) : dot ∈ (stem ++ dot :: tag).tail := by
  cases stem with
  | nil => exact absurd rfl hstem
  | cons b stem => exact List.mem_append_right _ List.mem_cons_self

/-- **Tagged names.** A tagged name tells its tag and what was tagged, if that did not end in a
dot. -/
theorem taggedName_inj (htag : IsTag tag) (htag' : IsTag tag')
    (hname : name.getLast? ≠ some dot) (hname' : name'.getLast? ≠ some dot)
    (h : taggedName name tag = taggedName name' tag') : name = name' ∧ tag = tag' := by
  have hdot := htag.dot_not_mem
  have hdot' := htag'.dot_not_mem
  rcases taggedName_cases tag hname with ⟨hwhole, heq⟩ | ⟨stem, e, hstem, he, rfl, heq⟩
  · rcases taggedName_cases tag' hname' with ⟨-, heq'⟩ | ⟨stem', e', hstem', he', rfl, heq'⟩
    · exact lastDot_inj hdot hdot' (heq.symm.trans (h.trans heq'))
    · -- the tag of the first would be the extension of the second, but only the second has one
      obtain ⟨rfl, -⟩ := lastDot_inj hdot he' (heq.symm.trans (h.trans heq'))
      exact absurd (dot_mem_tail hstem') hwhole
  · rcases taggedName_cases tag' hname' with ⟨hwhole', heq'⟩ | ⟨stem', e', -, he', rfl, heq'⟩
    · obtain ⟨rfl, -⟩ := lastDot_inj he hdot' (heq.symm.trans (h.trans heq'))
      exact absurd (dot_mem_tail hstem) hwhole'
    · obtain ⟨hfront, rfl⟩ := lastDot_inj he he' (heq.symm.trans (h.trans heq'))
      obtain ⟨rfl, rfl⟩ := lastDot_inj hdot hdot' hfront
      exact ⟨rfl, rfl⟩

/-! ## Tags that are numbers -/

theorem isDigit_of_byte_mem {c : Char} (hc : c.toNat < 128) {n : ℕ}
    (h : UInt8.ofNat c.toNat ∈ Utf8.encode (toString n)) : c.isDigit :=
  isDigit_of_mem_toString (Utf8.mem_of_byte_mem_encode hc h)

theorem isTag_number (n : ℕ) : IsTag (Utf8.encode (toString n)) where
  ne_nil h := by
    have hempty := Utf8.encode_eq_nil_iff.mp h
    rw [Nat.toString_eq_ofList_toDigits] at hempty
    exact Nat.toDigits_ne_nil (String.ofList_eq_empty_iff.mp hempty)
  dot_not_mem h := absurd (isDigit_of_byte_mem (c := '.') (by decide) h) (by decide)
  separator_not_mem h := absurd (isDigit_of_byte_mem (c := '/') (by decide) h) (by decide)

theorem number_inj {n m : ℕ} (h : Utf8.encode (toString n) = Utf8.encode (toString m)) : n = m :=
  toString_toList_inj (congrArg String.toList (Utf8.encode_inj h))

/-! ## Names that are texts -/

/-- The stem and the extension of a text are texts. -/
theorem Cut.texts {extension : Option Bytes} {s : String} (h : Cut (Utf8.encode s) stem extension) :
    ∃ t, stem = Utf8.encode t ∧ ∃ e : Option String, extension = e.map Utf8.encode := by
  generalize hname : Utf8.encode s = name at h
  cases h with
  | whole => exact ⟨s, hname.symm, none, rfl⟩
  | atDot =>
    obtain ⟨t, e, -, rfl, rfl⟩ := Utf8.exists_of_encode_eq_append (c := '.') (by decide) hname
    exact ⟨t, rfl, some e, rfl⟩

theorem encode_suffix (extension : Option String) :
    (Utf8.encode <|
      let e := ((extension.map Utf8.encode).bind Utf8.decode?).getD ""
      if e = "" then "" else "." ++ e) = suffix (extension.map Utf8.encode) := by
  cases extension with
  | none => rfl
  | some e =>
    simp only [Option.map_some, Option.bind_some, Utf8.decode?_encode, Option.getD_some, suffix,
      Utf8.encode_eq_nil_iff]
    by_cases he : e = ""
    · rw [if_pos he, if_pos he]
      rfl
    · rw [if_neg he, if_neg he, Utf8.encode_append]
      rfl

/-- Nothing is replaced in the name of a text when it is tagged. -/
theorem tagged_ofString {s : String} (h : (ofString s).fileName? = some name) (tag : String) :
    (ofString s).tagged tag = (ofString s).withFileName (taggedName name (Utf8.encode tag)) := by
  obtain ⟨t, rfl⟩ := exists_text_of_mem_segments (isName_of_fileName? h).1
  obtain ⟨stem, hstem, e, he⟩ := (cut_cutExtension (Utf8.encode t)).texts
  have hcut : cutExtension (Utf8.encode t) = (Utf8.encode stem, e.map Utf8.encode) :=
    Prod.ext hstem he
  rw [tagged, h]
  simp only [hcut]
  refine congrArg (withFileName _) ?_
  rw [Utf8.encode_append, Utf8.encode_append, Utf8.encode_append, Utf8.lossy_encode, encode_suffix,
    taggedName, hcut, List.append_assoc, List.append_assoc]
  rfl

/-! ## Paths tagged with numbers -/

/-- The name that a path ends in has an extension. -/
def HasExtension (p : Path) (extension : Bytes) : Prop :=
  ∃ name stem, p.fileName? = some name ∧ Cut name stem (some extension)

/-- The name that a path ends in ends in a dot. -/
def EndsInDot (p : Path) : Prop := p.fileName?.bind List.getLast? = some dot

instance (p : Path) : Decidable p.EndsInDot := inferInstanceAs (Decidable (_ = _))

section Numbered

variable {s t : String}

theorem fileName?_tagged (h : (ofString s).fileName? = some name) (n : ℕ) :
    ((ofString s).tagged (toString n)).fileName? =
      some (taggedName name (Utf8.encode (toString n))) := by
  rw [tagged_ofString h]
  exact fileName?_withFileName h (isName_taggedName (isName_of_fileName? h).2 (isTag_number n))

theorem parent_tagged (h : (ofString s).fileName? = some name) (n : ℕ) :
    ((ofString s).tagged (toString n)).parent.components = (ofString s).parent.components := by
  rw [tagged_ofString h]
  exact parent_withFileName h (isName_taggedName (isName_of_fileName? h).2 (isTag_number n))

theorem dropLast_tagged (h : (ofString s).fileName? = some name) (n : ℕ) :
    ((ofString s).tagged (toString n)).components.dropLast = (ofString s).components.dropLast := by
  rw [dropLast_components (fileName?_tagged h n), dropLast_components h, parent_tagged h]

theorem hasExtension_tagged (h : (ofString s).HasExtension extension) (hne : extension ≠ [])
    (n : ℕ) : ((ofString s).tagged (toString n)).HasExtension extension := by
  obtain ⟨name, stem, hname, hcut⟩ := h
  exact ⟨_, _, fileName?_tagged hname n, cut_taggedName hcut hne _⟩

theorem same_tagged_iff (hs : (ofString s).fileName? = some name)
    (ht : (ofString t).fileName? = some name') (n m : ℕ) :
    ((ofString s).tagged (toString n)).same ((ofString t).tagged (toString m)) ↔
      (ofString s).parent.components = (ofString t).parent.components ∧
        taggedName name (Utf8.encode (toString n)) =
          taggedName name' (Utf8.encode (toString m)) := by
  rw [same_iff_of_fileName? (fileName?_tagged hs n) (fileName?_tagged ht m), parent_tagged hs,
    parent_tagged ht]

/-- Two numbers never make one path of the same path. -/
theorem eq_of_same_tagged (h : (ofString s).fileName? = some name) {n m : ℕ}
    (hsame : ((ofString s).tagged (toString n)).same ((ofString s).tagged (toString m))) :
    n = m :=
  number_inj (tag_inj ((same_tagged_iff h h n m).mp hsame).2)

/-- **Tagged paths.** Number and path are told by what they make, if the names do not end in a
dot. -/
theorem same_tagged_iff_same (hs : (ofString s).fileName? = some name)
    (ht : (ofString t).fileName? = some name') (hsdot : ¬(ofString s).EndsInDot)
    (htdot : ¬(ofString t).EndsInDot) (n m : ℕ) :
    ((ofString s).tagged (toString n)).same ((ofString t).tagged (toString m)) ↔
      n = m ∧ (ofString s).same (ofString t) := by
  rw [EndsInDot, hs] at hsdot
  rw [EndsInDot, ht] at htdot
  rw [same_tagged_iff hs ht, same_iff_of_fileName? hs ht]
  constructor
  · rintro ⟨hparent, hname⟩
    obtain ⟨rfl, htag⟩ := taggedName_inj (isTag_number n) (isTag_number m) hsdot htdot hname
    exact ⟨number_inj htag, hparent, rfl⟩
  · rintro ⟨rfl, hparent, rfl⟩
    exact ⟨hparent, rfl⟩

end Numbered

end Path

/-! ## Logs of one's own -/

namespace LogSettings

/-- Variables that ask for a file of the process's own, named after a path that ends in a name. -/
structure AsksOwn (lookup : String → Option String) (p : Path) : Prop where
  unique : lookup "CLANG_BRIDGE_LOG_UNIQUE" = some "true"
  file : (lookup "CLANG_BRIDGE_LOG_FILE").map Path.ofString = some p
  named : p.fileName?.isSome

/-- The file that variables give to the process of a number. -/
def fileOf (lookup : String → Option String) (pid : UInt32) : Option Path :=
  (ofVariables lookup (toString pid.toNat)).file

/-- The files that processes log to, seen from the path these are named after. -/
structure OwnFiles (lookup : String → Option String) (p : Path) (own : UInt32 → Path) : Prop where
  file : ∀ pid, fileOf lookup pid = some (own pid)
  /-- All that is in front of the name stays. -/
  parent : ∀ pid, (own pid).components.dropLast = p.components.dropLast
  /-- An extension stays, unless it is empty. -/
  extension : ∀ pid e, p.HasExtension e → e ≠ [] → (own pid).HasExtension e
  /-- No two processes have one file. -/
  apart : ∀ pid pid', pid ≠ pid' → ¬(own pid).same (own pid')

variable {lookup lookup' : String → Option String} {p q : Path}

theorem AsksOwn.exists_text (h : AsksOwn lookup p) :
    ∃ s name, p = .ofString s ∧ (Path.ofString s).fileName? = some name := by
  obtain ⟨s, -, rfl⟩ := Option.map_eq_some_iff.mp h.file
  obtain ⟨name, hname⟩ := Option.isSome_iff_exists.mp h.named
  exact ⟨s, name, rfl, hname⟩

theorem AsksOwn.fileOf_eq (h : AsksOwn lookup p) (pid : UInt32) :
    fileOf lookup pid = some (p.tagged (toString pid.toNat)) := by
  simp only [fileOf, ofVariables, uniqueVariable, fileVariable, h.unique, h.file, decide_true,
    if_true, Option.map_some]

theorem AsksOwn.ownFiles (h : AsksOwn lookup p) :
    OwnFiles lookup p fun pid => p.tagged (toString pid.toNat) := by
  obtain ⟨s, name, rfl, hname⟩ := h.exists_text
  exact {
    file := h.fileOf_eq
    parent := fun pid => Path.dropLast_tagged hname pid.toNat
    extension := fun pid e he hne => Path.hasExtension_tagged he hne pid.toNat
    apart := fun pid pid' hne hsame =>
      hne (UInt32.toNat_inj.mp (Path.eq_of_same_tagged hname hsame)) }

/-- **Logs of one's own.** Where variables ask for a file of the process's own, it lies where the
configured one would, with the extension of that, and no two processes have one file. Nor do any
two configured paths, in whatever processes, if their names do not end in a dot. -/
theorem own_logs_apart (hp : AsksOwn lookup p) (hq : AsksOwn lookup' q) :
    ∃ own own', OwnFiles lookup p own ∧ OwnFiles lookup' q own' ∧
      (¬p.EndsInDot → ¬q.EndsInDot → ∀ pid pid',
        ((own pid).same (own' pid') ↔ pid = pid' ∧ p.same q)) := by
  refine ⟨_, _, hp.ownFiles, hq.ownFiles, fun hpdot hqdot pid pid' => ?_⟩
  obtain ⟨s, name, rfl, hname⟩ := hp.exists_text
  obtain ⟨t, name', rfl, hname'⟩ := hq.exists_text
  rw [Path.same_tagged_iff_same hname hname' hpdot hqdot, UInt32.toNat_inj]

theorem OwnFiles.eq_of_fileOf {own : UInt32 → Path} (h : OwnFiles lookup p own) {pid : UInt32}
    (hfile : fileOf lookup pid = some q) : own pid = q :=
  Option.some.inj ((h.file pid).symm.trans hfile)

/-- Variables that ask for a file of the process's own and say nothing else. -/
def asking (file : String) (name : String) : Option String :=
  if name = "CLANG_BRIDGE_LOG_UNIQUE" then some "true"
  else if name = "CLANG_BRIDGE_LOG_FILE" then some file
  else none

theorem asksOwn_asking {file : String} (h : (Path.ofString file).fileName?.isSome) :
    AsksOwn (asking file) (.ofString file) where
  unique := if_pos rfl
  file := by
    rw [asking, if_neg (by decide), if_pos rfl]
    rfl
  named := h

/-- A number that was the extension, or a name that starts with a dot, is not taken for a tag. An
extension that is another one than the number stays. -/
theorem numeric_names_apart :
    AsksOwn (asking "logs/a.42") (.ofString "logs/a.42") ∧
      AsksOwn (asking "logs//.42/") (.ofString "logs//.42/") ∧
      AsksOwn (asking "logs/bridge.log") (.ofString "logs/bridge.log") ∧
      fileOf (asking "logs/a.42") 42 = some (.ofString "logs/a.42.42") ∧
      fileOf (asking "logs//.42/") 42 = some (.ofString "logs/.42.42") ∧
      fileOf (asking "logs/bridge.log") 42 = some (.ofString "logs/bridge.42.log") ∧
      ¬(Path.ofString "logs/a.42.42").same (.ofString "logs/.42.42") ∧
      ¬(Path.ofString "logs/a.42.42").same (.ofString "logs/bridge.42.log") ∧
      (Path.ofString "logs/bridge.42.log").HasExtension (Utf8.encode "log") := by
  have hp : AsksOwn (asking "logs/a.42") _ := asksOwn_asking (by decide +kernel)
  have hq : AsksOwn (asking "logs//.42/") _ := asksOwn_asking (by decide +kernel)
  have hr : AsksOwn (asking "logs/bridge.log") _ := asksOwn_asking (by decide +kernel)
  have hpfile : fileOf (asking "logs/a.42") 42 = some (.ofString "logs/a.42.42") := by
    decide +kernel
  have hqfile : fileOf (asking "logs//.42/") 42 = some (.ofString "logs/.42.42") := by
    decide +kernel
  have hrfile : fileOf (asking "logs/bridge.log") 42 = some (.ofString "logs/bridge.42.log") := by
    decide +kernel
  have hlog : (Path.ofString "logs/bridge.log").HasExtension (Utf8.encode "log") :=
    ⟨Utf8.encode "bridge" ++ Path.dot :: Utf8.encode "log", Utf8.encode "bridge",
      by decide +kernel, .atDot (by decide +kernel) (by decide +kernel)⟩
  obtain ⟨own, own', hown, hown', hapart⟩ := own_logs_apart hp hq
  obtain ⟨own₁, own₂, hown₁, hown₂, hapart'⟩ := own_logs_apart hp hr
  refine ⟨hp, hq, hr, hpfile, hqfile, hrfile, ?_, ?_, ?_⟩
  · rw [← hown.eq_of_fileOf hpfile, ← hown'.eq_of_fileOf hqfile,
      hapart (by decide +kernel) (by decide +kernel)]
    exact fun h => absurd h.2 (by decide +kernel)
  · rw [← hown₁.eq_of_fileOf hpfile, ← hown₂.eq_of_fileOf hrfile,
      hapart' (by decide +kernel) (by decide +kernel)]
    exact fun h => absurd h.2 (by decide +kernel)
  · rw [← hown₂.eq_of_fileOf hrfile]
    exact hown₂.extension 42 _ hlog (by decide +kernel)

/-- A dot at the end is not kept, so that a name can be tagged like the one without the dot. -/
example : ((Path.ofString "a.").tagged "42").same ((Path.ofString "a").tagged "42") := by
  decide +kernel

end LogSettings

end ClangLens
