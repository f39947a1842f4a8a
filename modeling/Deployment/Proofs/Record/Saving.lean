import Deployment.Proofs.Storage.Moving
import Deployment.Record

/-! # What saving a record touches

A record is written beside the one that is there and then takes its place, all in the directory
of its account.

* **`Path.parent?_join`**, **`Path.fileName?_join`** — the parts of a path below a directory.
* **`RecordStore.Touched`** — the places that saving a record of an account may touch.
* **`RecordStore.save_steps`** — what the three steps of saving do, saving does.
* **`RecordStore.save_changes`** — no others are touched.
* **`RecordStore.save_moves`** — the record is moved to its place from beside it.
* **`RecordStore.save_retains`** — of what was there only the record changes and the file beside it.
* **`RecordStore.read_of_save`** — what is in the file of a record that was saved. -/

namespace Deployment

open Stateful FileTree

/-! ## The parts of paths -/

namespace Account

/-- The characters of the name of an account. -/
theorem identifierChar {a : Account} (h : a.isValid = true) {c : Char} (hc : c ∈ a.name.toList) :
    c ≠ '/' ∧ c ≠ '\\' ∧ c ≠ '.' := by
  simp only [isValid, isIdentifier, Bool.and_eq_true, List.all_eq_true] at h
  have := h.2 c hc
  refine ⟨?_, ?_, ?_⟩ <;> rintro rfl <;> revert this <;> decide

/-- The name of an account can stand as the name of a directory. -/
theorem isPlainName_of_isValid {a : Account} (h : a.isValid = true) :
    Path.isPlainName a.name = true := by
  have hne : a.name ≠ "" := by
    rintro he
    simp [isValid, isIdentifier, he] at h
  refine Path.isPlainName_iff.2 ⟨hne, fun c hc => ?_, fun he => ?_, fun he => ?_⟩
  · exact ⟨(identifierChar h hc).1, (identifierChar h hc).2.1⟩
  · exact (identifierChar h (c := '.') (by simp [he])).2.2 rfl
  · exact (identifierChar h (c := '.') (by simp [he])).2.2 rfl

end Account

namespace Path

/-- The path ends in a character that is neither a slash nor a dot. -/
def EndsFirmly (p : String) : Prop :=
  ∃ c r, p.toList.reverse = c :: r ∧ c ≠ '/' ∧ c ≠ '.'

/-- A name that ends in neither a slash nor a dot keeps its end. -/
theorem dropEnds_firm {c : Char} {r : List Char} (h : c ≠ '/') (h' : c ≠ '.') :
    dropEnds (c :: r) = c :: r := by
  simp [dropEnds, h, h']

/-- A plain name at the end of a path is not dropped. -/
theorem dropEnds_plain {name : String} (h : isPlainName name = true) (r : List Char) :
    dropEnds (name.toList.reverse ++ '/' :: r) = name.toList.reverse ++ '/' :: r := by
  have hs := slash_notMem h
  obtain ⟨hne, -, hdot, -⟩ := isPlainName_iff.1 h
  cases hr : name.toList.reverse with
  | nil => simp at hr; exact absurd hr hne
  | cons c rest =>
    have hc : c ≠ '/' := by
      rintro rfl
      exact hs (List.mem_reverse.1 (hr ▸ List.mem_cons_self ..))
    -- A dot at the end is dropped only when it is the whole name, which a plain one is not.
    by_cases hcd : c = '.'
    · cases rest with
      | nil =>
        have hl : name.toList = ['.'] := by
          rw [← List.reverse_reverse name.toList, hr, hcd]
          rfl
        exact absurd (String.toList_injective (hl.trans rfl)) hdot
      | cons c' rest =>
        have hc' : c' ≠ '/' := by
          rintro rfl
          exact hs (List.mem_reverse.1 (hr ▸ List.mem_cons_of_mem c (List.mem_cons_self ..)))
        simp [dropEnds, hc, hc']
    · simp [dropEnds, hc, hcd]

/-- Read backwards, what is in front of the last slash lies behind a plain name. -/
theorem dropWhile_plain {name : String} (h : isPlainName name = true) (r : List Char) :
    (name.toList.reverse ++ '/' :: r).dropWhile (· ≠ '/') = '/' :: r := by
  have hs := slash_notMem h
  rw [List.dropWhile_append_of_pos]
  · simp
  · intro c hc
    have : c ≠ '/' := by
      rintro rfl
      exact hs (List.mem_reverse.1 hc)
    simpa using this

/-- Read backwards, a plain name is what comes up to the last slash. -/
theorem takeWhile_plain {name : String} (h : isPlainName name = true) (r : List Char) :
    (name.toList.reverse ++ '/' :: r).takeWhile (· ≠ '/') = name.toList.reverse := by
  have hs := slash_notMem h
  rw [List.takeWhile_append_of_pos]
  · simp
  · intro c hc
    have : c ≠ '/' := by
      rintro rfl
      exact hs (List.mem_reverse.1 hc)
    simpa using this

/-- Below a path that ends firmly a name follows behind one slash. -/
theorem toList_join {dir name : String} (hd : EndsFirmly dir) (hn : isPlainName name = true) :
    (join dir name).toList.reverse = name.toList.reverse ++ '/' :: dir.toList.reverse := by
  obtain ⟨c, r, hr, hc, -⟩ := hd
  have hl : dir.toList = r.reverse ++ [c] := by
    rw [← List.reverse_reverse dir.toList, hr, List.reverse_cons]
  have hne : dir.isEmpty = false := by
    rw [Bool.eq_false_iff, ne_eq, String.isEmpty_iff]
    rintro rfl
    simp at hl
  have hlast : dir.toList.getLast? ≠ some '/' := by simpa [hl] using hc
  simp [join, isAbsolute_plain hn, hne, hlast]

/-- The directory of a path below a directory. -/
theorem parent?_join {dir name : String} (hd : EndsFirmly dir) (hn : isPlainName name = true) :
    parent? (join dir name) = some dir := by
  have hl := toList_join hd hn
  obtain ⟨c, r, hr, hc, hc'⟩ := hd
  have hlen : (name.toList.reverse ++ '/' :: dir.toList.reverse).length ≥ 2 := by
    simp [hr]
    omega
  have h0 : name.toList.reverse ++ '/' :: dir.toList.reverse ≠ [] := fun h => by simp at h
  have h1 : name.toList.reverse ++ '/' :: dir.toList.reverse ≠ ['/'] := fun h => by simp [h] at hlen
  have hdrop : dropEnds ('/' :: dir.toList.reverse) = dir.toList.reverse := by
    rw [hr, dropEnds, if_pos rfl, if_neg (by simp), dropEnds_firm hc hc']
  simp only [parent?, hl, dropEnds_plain hn, dropWhile_plain hn, h0, h1, hdrop, decide_false,
    Bool.or_self, Bool.false_eq_true, if_false, List.reverse_reverse, String.ofList_toList]

/-- The last name of a path below a directory. -/
theorem fileName?_join {dir name : String} (hd : EndsFirmly dir) (hn : isPlainName name = true) :
    fileName? (join dir name) = some name := by
  obtain ⟨hne, -, hdot, hdots⟩ := isPlainName_iff.1 hn
  have hback : ∀ {l : List Char}, String.ofList l.reverse ≠ name → name.toList.reverse ≠ l := by
    rintro l hne rfl
    simp at hne
  have h0 : name.toList.reverse ≠ [] := hback (Ne.symm hne)
  have h1 : name.toList.reverse ≠ ['.'] := hback (Ne.symm hdot)
  have h2 : name.toList.reverse ≠ ['.', '.'] := hback (Ne.symm hdots)
  simp only [fileName?, lastName, toList_join hd hn, dropEnds_plain hn, takeWhile_plain hn, h0,
    h1, h2, decide_false, Bool.or_self, Bool.false_eq_true, if_false, List.reverse_reverse,
    String.ofList_toList]

/-- Another name in the directory of a path. -/
theorem withFileName_join {dir name other : String} (hd : EndsFirmly dir)
    (hn : isPlainName name = true) : withFileName (join dir name) other = join dir other := by
  rw [withFileName, fileName?_join hd hn, parent?_join hd hn]
  rfl

/-- A path ends in the name that is joined to it. -/
theorem reverse_join (dir : String) {name : String} (h : isPlainName name = true) :
    ∃ r, (join dir name).toList.reverse = name.toList.reverse ++ r := by
  rw [join, isAbsolute_plain h]
  simp only [Bool.false_eq_true, if_false]
  split
  · exact ⟨dir.toList.reverse, by simp⟩
  · exact ⟨'/' :: dir.toList.reverse, by simp⟩

/-- The path to the directory of an account ends firmly. -/
theorem endsFirmly_join (dir : String) {a : Account} (h : a.isValid = true) :
    EndsFirmly (join dir a.name) := by
  have hn := Account.isPlainName_of_isValid h
  obtain ⟨r, hr⟩ := reverse_join dir hn
  cases hl : a.name.toList.reverse with
  | nil => exact absurd (by simpa using hl) (isPlainName_iff.1 hn).1
  | cons c front =>
    have hc := Account.identifierChar h (List.mem_reverse.1 (hl ▸ List.mem_cons_self ..))
    exact ⟨c, front ++ r, by rw [hr, hl, List.cons_append], hc.1, hc.2.2⟩

end Path

/-- The name beside a plain name is plain. -/
theorem Path.isPlainName_beside {name : String} (h : isPlainName name = true) :
    isPlainName (besideName name) = true := by
  obtain ⟨-, hc, -⟩ := isPlainName_iff.1 h
  have hl : (besideName name).toList = name.toList ++ ['.', 't', 'm', 'p'] := by
    simp [besideName]
  refine isPlainName_iff.2 ⟨?_, ?_, ?_, ?_⟩
  · intro he
    simp [he] at hl
  · intro c hm
    rw [hl, List.mem_append] at hm
    rcases hm with hm | hm
    · exact hc c hm
    · have hc : c = '.' ∨ c = 't' ∨ c = 'm' ∨ c = 'p' := by simpa using hm
      rcases hc with rfl | rfl | rfl | rfl <;> decide
  · intro he
    have := congrArg List.length hl
    simp [he] at this
  · intro he
    have := congrArg List.length hl
    simp [he] at this

/-- The name beside a name is another. -/
theorem Path.besideName_ne (name : String) : besideName name ≠ name := by
  intro he
  have := congrArg String.length he
  simp [besideName] at this

/-! ## Saving -/

namespace RecordStore

variable {s : RecordStore} {r : SessionRecord} {t t' : FileTree}

/-- The directory of an account. -/
def directory (s : RecordStore) (a : Account) : String := Path.join s.root a.name

/-- The file that a record is written to first. -/
def beside (s : RecordStore) (a : Account) : String :=
  Path.join (s.directory a) (Path.besideName s.fileName)

/-- The file of the record of an account. -/
def file (s : RecordStore) (a : Account) : String := Path.join (s.directory a) s.fileName

/-- The bytes of a record. -/
def bytes (r : SessionRecord) : List UInt8 := Utf8.encode (SessionRecord.form.pretty r)

/-- A change of files goes as it does, and its fault is told with the path. -/
theorem about_apply {α : Type} (path : String) (x : Files α) (t : FileTree) :
    about path x t = match x t with
      | .ok a t' => .ok a t'
      | .error f t' => .error (.storage path f) t' := by
  simp only [about, EStateM.adaptExcept]
  cases x t <;> rfl

/-- An account has a path if its name is valid, and that is the path of its file. -/
theorem path_ok {a : Account} {p : String} (h : s.path a = .ok p) :
    a.isValid = true ∧ p = s.file a := by
  unfold path at h
  split at h
  next hv =>
    cases h
    exact ⟨hv, rfl⟩
  next => cases h

/-- The file beside that of a record. -/
theorem pathBeside_file (s : RecordStore) {a : Account} (hv : a.isValid = true)
    (hn : Path.isPlainName s.fileName = true) : s.pathBeside (s.file a) = s.beside a :=
  Path.withFileName_join (Path.endsFirmly_join s.root hv) hn

/-- A record is saved in three steps. -/
theorem save_eq (hv : r.account.isValid = true) (hn : Path.isPlainName s.fileName = true)
    (hd : s.saveDown = false) (t : FileTree) :
    s.save r t = match Files.createDirectories (s.directory r.account) t with
      | .error f t₁ => .error (.storage (s.directory r.account) f) t₁
      | .ok () t₁ => match Files.write (s.beside r.account) (bytes r) t₁ with
        | .error f t₂ => .error (.storage (s.beside r.account) f) t₂
        | .ok () t₂ => about (s.file r.account)
            (Files.rename (s.beside r.account) (s.file r.account)) t₂ := by
  have hpath : s.path r.account = .ok (s.file r.account) := by
    simp only [path, hv, if_true]
    rfl
  have hparent : Path.parent? (s.file r.account) = some (s.directory r.account) :=
    Path.parent?_join (Path.endsFirmly_join s.root hv) hn
  have hbeside := s.pathBeside_file hv hn
  unfold save bytes
  simp only [hd, Bool.false_eq_true, if_false, hpath, MonadExcept.ofExcept, run_bind, run_pure,
    hparent, hbeside, about_apply]
  cases Files.createDirectories (s.directory r.account) t with
  | error f t₁ => rfl
  | ok _ t₁ =>
    simp only
    cases Files.write (s.beside r.account) (Utf8.encode (SessionRecord.form.pretty r)) t₁ with
    | error f t₂ => rfl
    | ok _ t₂ => rfl

/-- A store that is down saves nothing, and neither is a record saved for nobody. -/
theorem save_refused (h : r.account.isValid = false ∨ s.saveDown = true) (t : FileTree) :
    ∃ f, s.save r t = .error f t := by
  cases hd : s.saveDown with
  | true => exact ⟨.storage nowhere (.down "save"), by
      simp only [save, hd, run_bind, run_throw, if_true]⟩
  | false =>
    have hv : r.account.isValid = false := by simpa [hd] using h
    have hpath : s.path r.account = .error (.invalidAccount r.account) := by
      simp only [path, hv, Bool.false_eq_true, if_false]
    exact ⟨.invalidAccount r.account, by
      simp only [save, hd, Bool.false_eq_true, if_false, hpath, MonadExcept.ofExcept, run_bind,
        run_throw]⟩

/-- The places that saving a record of an account may touch before the record takes its place. -/
def Drafted (s : RecordStore) (a : Account) (p : Place) : Prop :=
  p = Path.place s.root ++ [a.name] ∨ p = Path.place (s.beside a)

/-- The places that saving a record of an account may touch. -/
def Touched (s : RecordStore) (a : Account) (p : Place) : Prop :=
  p = Path.place s.root ++ [a.name] ∨ p = Path.place (s.beside a) ∨ p = Path.place (s.file a)

/-- Saving a record comes to an end beside the one that is there, or the new one takes its place
last of all. What is done before that is done by making the directory and by writing a file. -/
theorem save_cases {R : FileTree → FileTree → Prop} (refl : ∀ t, R t t)
    (trans : ∀ {t t' t''}, R t t' → R t' t'' → R t t'')
    (hn : Path.isPlainName s.fileName = true)
    (hdirs : R t (finalState (Files.createDirectories (s.directory r.account)) t))
    (hwrite : ∀ t, R t (finalState (Files.write (s.beside r.account) (bytes r)) t)) :
    ∃ t₂, R t t₂ ∧ ((∃ f, s.save r t = .error f t₂) ∨
      s.save r t = about (s.file r.account)
        (Files.rename (s.beside r.account) (s.file r.account)) t₂) := by
  -- An invalid account or a store that is down is refused before the files are asked.
  by_cases h : r.account.isValid = false ∨ s.saveDown = true
  · obtain ⟨f, hf⟩ := save_refused h t
    exact ⟨t, refl t, .inl ⟨f, hf⟩⟩
  · simp only [not_or, Bool.not_eq_false, Bool.not_eq_true] at h
    obtain ⟨hv, hd⟩ := h
    rw [save_eq hv hn hd t]
    cases hc : Files.createDirectories (s.directory r.account) t with
    | error f t₁ =>
      rw [finalState_of_error hc] at hdirs
      exact ⟨t₁, hdirs, .inl ⟨_, rfl⟩⟩
    | ok _ t₁ =>
      rw [finalState_of_ok hc] at hdirs
      have hwritten := hwrite t₁
      simp only
      cases hw : Files.write (s.beside r.account) (bytes r) t₁ with
      | error f t₂ =>
        rw [finalState_of_error hw] at hwritten
        exact ⟨t₂, trans hdirs hwritten, .inl ⟨_, rfl⟩⟩
      | ok _ t₂ =>
        rw [finalState_of_ok hw] at hwritten
        exact ⟨t₂, trans hdirs hwritten, .inr rfl⟩

/-- What the three steps of saving a record do to the files, saving it does. -/
theorem save_steps {R : FileTree → FileTree → Prop} (refl : ∀ t, R t t)
    (trans : ∀ {t t' t''}, R t t' → R t' t'' → R t t'')
    (hn : Path.isPlainName s.fileName = true)
    (hdirs : R t (finalState (Files.createDirectories (s.directory r.account)) t))
    (hwrite : ∀ t, R t (finalState (Files.write (s.beside r.account) (bytes r)) t))
    (hrename : ∀ t, R t
      (finalState (Files.rename (s.beside r.account) (s.file r.account)) t)) :
    R t (finalState (s.save r) t) := by
  obtain ⟨t₂, hdraft, ⟨f, hsave⟩ | hsave⟩ := save_cases refl trans hn hdirs hwrite
  · rw [finalState_of_error hsave]
    exact hdraft
  · have hlast : finalState (s.save r) t =
        finalState (Files.rename (s.beside r.account) (s.file r.account)) t₂ := by
      unfold finalState
      rw [hsave]
      simp only [about_apply]
      cases Files.rename (s.beside r.account) (s.file r.account) t₂ <;> rfl
    rw [hlast]
    exact trans hdraft (hrename t₂)

/-- Where making the directory of an account and the two files of its record may change the files,
saving a record changes nothing else. -/
theorem save_changes_of {P : Place → Prop} (hn : Path.isPlainName s.fileName = true)
    (hbeside : P (Path.place (s.beside r.account))) (hfile : P (Path.place (s.file r.account)))
    (hdirs : ChangesOnly P t (finalState (Files.createDirectories (s.directory r.account)) t)) :
    ChangesOnly P t (finalState (s.save r) t) := by
  refine save_steps (ChangesOnly.refl P) .trans hn hdirs (fun t => ?_) fun t => ?_
  · exact (Files.write_changes _ _ t).mono (by rintro p rfl; exact hbeside)
  · refine (Files.rename_changes _ _ t).mono ?_
    rintro p (rfl | rfl)
    · exact hbeside
    · exact hfile

/-- Making the directory of an account touches its place, if the directory of all accounts can be
entered. -/
theorem directory_changes {P : Place → Prop} (ht : t.Reaches s.root) {a : Account}
    (hv : a.isValid = true) (hP : P (Path.place s.root ++ [a.name])) :
    ChangesOnly P t (finalState (Files.createDirectories (s.directory a)) t) :=
  (Files.createDirectories_changes (Account.isPlainName_of_isValid hv) ht).mono
    (by rintro p rfl; exact hP)

/-- Saving a record touches no other places, if the directory of all accounts can be entered. -/
theorem save_changes (hn : Path.isPlainName s.fileName = true) (ht : t.Reaches s.root) :
    ChangesOnly (s.Touched r.account) t (finalState (s.save r) t) := by
  cases hv : r.account.isValid with
  | true =>
    exact save_changes_of hn (.inr (.inl rfl)) (.inr (.inr rfl))
      (directory_changes ht hv (.inl rfl))
  | false =>
    obtain ⟨f, hf⟩ := save_refused (.inl hv) t
    rw [finalState_of_error hf]
    exact .refl _ _

/-- Wherever the directory of all accounts is, saving a record changes of what was there only the
record and the file beside it. -/
theorem save_retains (hn : Path.isPlainName s.fileName = true) (r : SessionRecord)
    (t : FileTree) :
    Retains (fun p => p = Path.place (s.beside r.account) ∨ p = Path.place (s.file r.account)) t
      (finalState (s.save r) t) :=
  save_changes_of hn (.inr (.inl rfl)) (.inr (.inr rfl))
    (Files.createDirectories_retains _ _ t)

/-- Saving a record moves no file but the one beside it. -/
theorem save_moves (hn : Path.isPlainName s.fileName = true) (r : SessionRecord)
    (t : FileTree) :
    MovesOnly (· = Path.place (s.beside r.account)) t (finalState (s.save r) t) :=
  save_steps (MovesOnly.refl _) .trans hn (Files.createDirectories_moves _ _ t)
    (Files.write_moves _ _ _)
    (Files.rename_moves (R := (· = Path.place (s.beside r.account))) rfl _)

/-- What making the directory and writing a file do to the files is all that is done where a record
could not be saved: taking its place is the last step, and changes nothing if it fails. -/
theorem save_error_steps {R : FileTree → FileTree → Prop} (refl : ∀ t, R t t)
    (trans : ∀ {t t' t''}, R t t' → R t' t'' → R t t'')
    (hn : Path.isPlainName s.fileName = true)
    (hdirs : R t (finalState (Files.createDirectories (s.directory r.account)) t))
    (hwrite : ∀ t, R t (finalState (Files.write (s.beside r.account) (bytes r)) t))
    {f : RecordFault} (h : s.save r t = .error f t') : R t t' := by
  obtain ⟨t₂, hdraft, ⟨g, hsave⟩ | hsave⟩ := save_cases refl trans hn hdirs hwrite
  · rw [h] at hsave
    cases hsave
    exact hdraft
  · rw [h, about_apply] at hsave
    cases hrename : Files.rename (s.beside r.account) (s.file r.account) t₂ with
    | ok _ t₃ => simp [hrename] at hsave
    -- A rename that fails leaves everything where it was.
    | error g t₃ =>
      rw [hrename] at hsave
      cases hsave
      rw [Files.rename_error hrename]
      exact hdraft

/-- A record that could not be saved leaves the one that is there alone. -/
theorem save_error_changes (hn : Path.isPlainName s.fileName = true)
    (hv : r.account.isValid = true) (ht : t.Reaches s.root) {f : RecordFault}
    (h : s.save r t = .error f t') : ChangesOnly (s.Drafted r.account) t t' :=
  save_error_steps (ChangesOnly.refl (s.Drafted r.account)) .trans hn
    (directory_changes ht hv (.inl rfl))
    (fun t => (Files.write_changes _ _ t).mono (by rintro p rfl; exact .inr rfl)) h

/-- The record of an account lies in its directory under the root. -/
theorem place_file (s : RecordStore) {a : Account} (hv : a.isValid = true)
    (hn : Path.isPlainName s.fileName = true) :
    Path.place (s.file a) = Path.place s.root ++ [a.name, s.fileName] := by
  rw [file, Path.place_join _ hn, directory, Path.place_join _ (Account.isPlainName_of_isValid hv),
    List.append_assoc]
  rfl

/-- So does the file beside it, which is written first. -/
theorem place_beside (s : RecordStore) {a : Account} (hv : a.isValid = true)
    (hn : Path.isPlainName s.fileName = true) :
    Path.place (s.beside a) = Path.place s.root ++ [a.name, Path.besideName s.fileName] := by
  rw [beside, Path.place_join _ (Path.isPlainName_beside hn), directory,
    Path.place_join _ (Account.isPlainName_of_isValid hv), List.append_assoc]
  rfl

/-- The file of a record that was saved holds the record, in a directory that can be entered. -/
theorem read_of_save (hn : Path.isPlainName s.fileName = true) (hb : bytes r ≠ [])
    (h : s.save r t = .ok () t') :
    r.account.isValid = true ∧ s.saveDown = false ∧ t'.Reaches (s.directory r.account) ∧
      t'.read (s.file r.account) = .ok (bytes r) := by
  by_cases hno : r.account.isValid = false ∨ s.saveDown = true
  · obtain ⟨f, hf⟩ := save_refused hno t
    rw [h] at hf
    cases hf
  · simp only [not_or, Bool.not_eq_false, Bool.not_eq_true] at hno
    obtain ⟨hv, hd⟩ := hno
    refine ⟨hv, hd, ?_⟩
    rw [save_eq hv hn hd] at h
    split at h
    · cases h
    next t₁ hc =>
      split at h
      · cases h
      next t₂ hw =>
        -- The file beside has a name of its own.
        have hplaces : Path.place (s.beside r.account) ≠ Path.place (s.file r.account) := by
          rw [place_beside s hv hn, place_file s hv hn]
          intro he
          exact Path.besideName_ne _
            (List.cons.inj (List.cons.inj (List.append_cancel_left he)).2).1
        rw [about_apply] at h
        split at h
        next t₃ hren =>
          cases h
          obtain ⟨n, hf, hcontent⟩ := Files.write_ok hw hb
          obtain ⟨hfile, hsame, src, dst, hsrc, hdst⟩ := Files.rename_ok hren hf hplaces
          have hch := Files.rename_changes (s.beside r.account) (s.file r.account) t₂
          rw [finalState_of_ok hren] at hch
          have hreach := (reaches_of_resolve_join hn hdst).1
          refine ⟨hch.reaches hreach, ?_⟩
          -- Renaming does not touch the way to the directory, so the path still leads to the file
          -- that was moved.
          have hres : t'.resolve (s.file r.account) = .ok dst :=
            (resolve_join_congr hn hreach (hch.reaches hreach)).trans hdst
          rw [read_of_resolve hres, resolve_place hres, hfile,
            (reaches_of_resolve_join hn hdst).2]
          simp [hsame, hcontent]
        next => cases h

end RecordStore

end Deployment
