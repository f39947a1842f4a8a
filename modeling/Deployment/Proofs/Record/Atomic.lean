import Deployment.Proofs.Record.RoundTrip
import Deployment.Proofs.Storage.Growth
import Mathlib.Control.Monad.Basic

/-! # Saving is atomic

A record that cannot be saved leaves all records as they were, and one that is saved replaces that
of its account and no other. What stays behind at most is the directory of the account, with those
above it: where there was nothing to look into before, there is something now.

* **`RecordStore.save_closed`** — saving keeps a tree closed.
* **`RecordStore.grows_of_error`**, **`RecordStore.grows_of_save`** — what saving adds to the files.
* **`RecordStore.root_cases`** — where the directory of all accounts is if something is saved.
* **`RecordStore.Uncovers`** — what is loaded that could not be reached before.
* **`RecordStore.LoadsAlike`** — a record is loaded as before, unless its directory was missing.
* **`RecordStore.load_of_long`** — that a name is too long comes to light with its directory.
* **`save_is_atomic`** — what saving a record does to what is loaded. -/

namespace Deployment

open Stateful FileTree

/-- What was renamed is gone from its old name. -/
theorem Files.rename_gone {t t' : FileTree} {source target : String}
    (h : rename source target t = .ok () t') (hne : Path.place source ≠ Path.place target) :
    t'.find? (Path.place source) = none := by
  rcases rename_cases source target t with ⟨f, h'⟩ | ⟨hsame, -⟩ | ⟨e, _, _, -, -, hf, he, hdst, h'⟩
  · cases h.symm.trans h'
  · exact absurd hsame hne
  · cases h.symm.trans h'
    rw [find?_move hf he hdst, if_neg (Ne.symm hne), if_pos rfl]

/-- A directory is not made where its path leads nowhere, and not for want of one above it. -/
theorem Files.createDirectories_of_error {t : FileTree} {path : String} {f : StorageFault}
    (hr : t.resolve path = .error f) (hf : f ≠ .notFound) :
    createDirectories path t = .error f t := by
  have hensure : ensureDirectory path t = .error f t := by
    obtain ⟨target, hr', -⟩ | ⟨hd, -⟩ | ⟨g, hg, h⟩ := ensureDirectory_cases path t
    · cases hr.symm.trans hr'
    · obtain ⟨target, hr', -⟩ := isDirectory_iff.1 hd
      cases hr.symm.trans hr'
    · cases (createDirectory_of_error hr).symm.trans hg
      exact h
  have hne : path ≠ "" := by
    rintro rfl
    cases hr
    exact hf rfl
  obtain ⟨hp, -⟩ | h | ⟨_, _, t₁, -, -, hmissing, -⟩ := createDirectoriesUp_cases path.length path t
  · exact absurd (String.isEmpty_iff.1 hp) hne
  · exact h.trans hensure
  · cases hensure.symm.trans hmissing
    exact absurd rfl hf

namespace RecordStore

variable {s : RecordStore} {r : SessionRecord} {t t' : FileTree} {a b : Account}

/-! ## What is left behind -/

/-- The file beside a record is another than the file of any record. -/
theorem beside_ne_file (hn : Path.isPlainName s.fileName = true) (hv : a.isValid = true)
    (hb : b.isValid = true) : Path.place (s.file b) ≠ Path.place (s.beside a) := by
  rw [place_beside s hv hn, place_file s hb hn]
  intro he
  exact Path.besideName_ne _
    (List.cons.inj (List.cons.inj (List.append_cancel_left he)).2).1.symm

/-- A record that was saved is no longer beside its file. -/
theorem beside_of_save (hn : Path.isPlainName s.fileName = true) (h : s.save r t = .ok () t') :
    t'.find? (Path.place (s.beside r.account)) = none := by
  obtain ⟨hv, -⟩ := read_of_save hn (bytes_ne_nil r) h
  obtain ⟨t₂, -, ⟨f, hsave⟩ | hsave⟩ := @save_cases s r t (fun _ _ => True) (fun _ => trivial)
    (fun _ _ => trivial) hn trivial fun _ => trivial
  · cases h.symm.trans hsave
  · rw [h, about_apply] at hsave
    split at hsave
    next hrename =>
      cases hsave
      exact Files.rename_gone hrename (beside_ne_file hn hv hv).symm
    next => cases hsave

/-- Saving a record keeps a tree closed. -/
theorem save_closed (hn : Path.isPlainName s.fileName = true) (r : SessionRecord)
    (h : t.Closed) : (finalState (s.save r) t).Closed :=
  @save_steps s r t (fun t t' => t.Closed → t'.Closed) (fun _ h => h) (fun h h' ht => h' (h ht)) hn
    (fun h => h.createDirectories _) (fun _ h => h.write _ _) (fun _ h => h.rename _ _) h

/-- The directories that are made for a record lie at places of a kind. -/
def MadeAt (s : RecordStore) (a : Account) (t : FileTree) (D : Place → Prop) : Prop :=
  ∀ q, Path.IsAbove q (s.directory a) → t.find? (Path.place q) = none → D (Path.place q)

/-- Below a straight path they lie on the way to the directory of the account. -/
theorem madeAt_of_straight (closed : t.Closed) (straight : t.Straight s.root)
    (hv : a.isValid = true) : s.MadeAt a t (· <+: Path.place (s.directory a)) := fun _ hq hnone =>
  (straight.join (Account.isPlainName_of_isValid hv)).place_above closed hq hnone

/-- A record that could not be saved leaves the file beside it at most, and the directories that
were made. -/
theorem grows_of_error {D : Place → Prop} (hn : Path.isPlainName s.fileName = true)
    (hD : s.MadeAt r.account t D) {f : RecordFault} (h : s.save r t = .error f t') :
    Grows (· = Path.place (s.beside r.account)) D t t' :=
  save_error_steps (Grows.refl _ _) .trans hn (.createDirectories _ hD)
    (fun t => .of_changes (Files.write_changes _ _ t)) h

/-- A record that was saved leaves its file besides. -/
theorem grows_of_save {D : Place → Prop} (hn : Path.isPlainName s.fileName = true)
    (hD : s.MadeAt r.account t D) (h : s.save r t = .ok () t') :
    Grows (fun p => p = Path.place (s.beside r.account) ∨ p = Path.place (s.file r.account)) D
      t t' := by
  rw [← finalState_of_ok h]
  refine save_steps (Grows.refl _ _) .trans hn (.createDirectories _ hD)
    (fun t => .of_changes ?_) fun t => .of_changes (Files.rename_changes _ _ t)
  exact (Files.write_changes _ _ t).mono fun p hp => .inl hp

/-- The directory of all accounts is reached straight, or one above it is missing; else nothing is
saved. -/
theorem root_cases (hn : Path.isPlainName s.fileName = true) (r : SessionRecord) (t : FileTree) :
    t.Straight s.root ∨ (¬ t.Straight s.root ∧ t.walk s.root = .error .notFound) ∨
      ∃ f, s.save r t = .error f t := by
  by_cases straight : t.Straight s.root
  · exact .inl straight
  refine .inr ?_
  cases hwalk : t.walk s.root with
  | ok p => exact absurd (.of_reaches (reaches_of_enterAll hwalk)) straight
  | error f =>
    by_cases hf : f = .notFound
    · exact .inl ⟨straight, hf ▸ rfl⟩
    refine .inr ?_
    by_cases h : r.account.isValid = false ∨ s.saveDown = true
    · exact save_refused h t
    simp only [not_or, Bool.not_eq_false, Bool.not_eq_true] at h
    obtain ⟨hv, hd⟩ := h
    -- the fault on the way to the root is that of the directory below it
    obtain ⟨g, hg, hresolve⟩ : ∃ g, g ≠ .notFound ∧
        t.resolve (s.directory r.account) = .error g := by
      obtain ⟨g, hg, hunfit⟩ | hresolve :=
        resolve_join_cases s.root (Account.isPlainName_of_isValid hv)
      · exact ⟨g, hg, hunfit t⟩
      · have hblocked := hresolve t
        rw [hwalk] at hblocked
        exact ⟨f, hf, hblocked⟩
    rw [save_eq hv hn hd, Files.createDirectories_of_error hresolve hg]
    exact ⟨_, rfl⟩

/-! ## What is loaded -/

/-- The record that bytes hold. -/
def parsed (bytes : List UInt8) : Except RecordFault (Option SessionRecord) :=
  match SessionRecord.form.parse bytes with
  | .ok r => .ok (some r)
  | .error f => .error (.malformed f)

/-- What is loaded of a record that could not be reached before is what lies at its place. -/
inductive Uncovers (s : RecordStore) (a : Account) (t t' : FileTree) : Prop where
  /-- A file lies there, as it lay there before. -/
  | record (n : Nat) (lay : t.find? (Path.place (s.file a)) = some (.file n))
      (loads : s.load t' a = parsed (t.content n))
  /-- No file lies there, but something else that cannot be read. -/
  | unreadable (e : Entry) (f : StorageFault) (lies : t'.find? (Path.place (s.file a)) = some e)
      (noFile : ∀ n, e ≠ .file n) (fails : s.load t' a = .error (.storage (s.file a) f))
  /-- The path still leads nowhere, but no longer for want of a directory. -/
  | barred (f : StorageFault) (nowhere : t'.resolve (s.file a) = .error f)
      (fails : s.load t' a = .error (.storage (s.file a) f))

/-- The record of an account is loaded as before. Where there was none for want of its directory,
one of the names on the way to it can turn out to be too long, and if the path steps up from where
nothing was, what lies at the place that it leads to comes to light. -/
def LoadsAlike (s : RecordStore) (a : Account) (t t' : FileTree) : Prop :=
  s.load t' a = s.load t a ∨
    s.load t a = .ok none ∧ ¬ t.Reaches (s.directory a) ∧
      (s.load t' a = .error (.storage (s.file a) .nameTooLong) ∧
          (∃ name ∈ Path.names (s.file a), maxName < name.utf8ByteSize) ∨
        ¬ t.Straight s.root ∧ s.Uncovers a t t')

/-- Where nothing has changed, the record is loaded as before. -/
theorem LoadsAlike.refl (s : RecordStore) (a : Account) (t : FileTree) : s.LoadsAlike a t t :=
  .inl rfl

/-- What is loaded is told by what is read. -/
theorem load_congr (h : a.isValid = true → t'.read (s.file a) = t.read (s.file a)) :
    s.load t' a = s.load t a := by
  cases hv : a.isValid with
  | false =>
    have hpath : s.path a = .error (.invalidAccount a) := by rw [path, hv]; rfl
    simp only [load, hpath, Failing.error_bind]
  | true =>
    have hpath : s.path a = .ok (s.file a) := if_pos hv
    simp only [load, hpath, Failing.ok_bind, h hv]

/-- Where nothing can be read, there is no record or the fault is told. -/
theorem load_of_read_error (hv : a.isValid = true) (hdown : s.loadDown = false)
    {f : StorageFault} (h : t.read (s.file a) = .error f) :
    s.load t a = if f = .notFound then .ok none else .error (.storage (s.file a) f) := by
  have hpath : s.path a = .ok (s.file a) := if_pos hv
  simp only [load, hdown, Bool.false_eq_true, if_false, hpath, Failing.ok_bind, h]
  cases f <;> rfl

/-- Where bytes can be read, the record that they hold is loaded. -/
theorem load_of_read_ok (hv : a.isValid = true) (hdown : s.loadDown = false) {bytes : List UInt8}
    (h : t.read (s.file a) = .ok bytes) : s.load t a = parsed bytes := by
  have hpath : s.path a = .ok (s.file a) := if_pos hv
  simp only [load, hdown, Bool.false_eq_true, if_false, hpath, Failing.ok_bind, h]
  rfl

/-- A directory cannot be entered where the one above it cannot. -/
theorem walk_directory {f : StorageFault} (hv : a.isValid = true)
    (h : t.walk s.root = .error f) : t.walk (s.directory a) = .error f := by
  have hn := Account.isPlainName_of_isValid hv
  rw [walk, directory, Path.names_join s.root hn, List.foldlM_append, Path.origin,
    Path.isAbsolute_join s.root hn]
  rw [walk, Path.origin] at h
  rw [h]
  rfl

/-- Where the directory of all accounts is missing there is no record, and what comes to light once
it is there lay at its place. -/
theorem loadsAlike_of_missing {X D : Place → Prop} (hn : Path.isPlainName s.fileName = true)
    (h : t.walk s.root = .error .notFound) (hs : ¬ t.Straight s.root) (hg : Grows X D t t')
    (hX : a.isValid = true → ¬ X (Path.place (s.file a))) : s.LoadsAlike a t t' := by
  cases hdown : s.loadDown with
  | true => exact .inl (by simp only [load, hdown, if_true]; rfl)
  | false =>
    cases hv : a.isValid with
    | false => exact .inl (load_congr fun hv' => by cases hv.symm.trans hv')
    | true =>
      have hwalk := walk_directory hv h
      -- Either the path itself is at fault in every tree, or it leads through the directory, which
      -- was not there.
      obtain ⟨f, -, hunfit⟩ | hresolve := resolve_join_cases (s.directory a) hn
      · exact .inl (load_congr fun _ =>
          (read_of_error (hunfit t')).trans (read_of_error (hunfit t)).symm)
      · have hmissing := hresolve t
        rw [hwalk] at hmissing
        have hnone := load_of_read_error hv hdown (read_of_error hmissing)
        have hout : ¬ t.Reaches (s.directory a) := by
          intro hreach
          cases hwalk.symm.trans hreach
        have hsame : t'.read (s.file a) = .error .notFound → s.load t' a = s.load t a :=
          fun hread => (load_of_read_error hv hdown hread).trans hnone.symm
        -- Whether the path reads now depends on where the way to it leads, which may be back into
        -- what was there.
        cases hr : t'.resolve (s.file a) with
        | error f =>
          by_cases hf : f = .notFound
          · exact .inl (hsame (hf ▸ read_of_error hr))
          · have hfails := load_of_read_error hv hdown (read_of_error hr)
            rw [if_neg hf] at hfails
            exact .inr ⟨hnone, hout, .inr ⟨hs, .barred f hr hfails⟩⟩
        | ok target =>
          have hslash : target.slash = false := by rw [(reaches_of_resolve_join hn hr).2]
          obtain hread | ⟨n, hlay, hread⟩ | ⟨e, f, hlies, hfile, hf, hread⟩ :=
            hg.read_lies hr hslash (hX hv)
          · exact .inl (hsame hread)
          · exact .inr ⟨hnone, hout, .inr ⟨hs, .record n hlay (load_of_read_ok hv hdown hread)⟩⟩
          · have hfails := load_of_read_error hv hdown hread
            rw [if_neg hf] at hfails
            exact .inr ⟨hnone, hout, .inr ⟨hs, .unreadable e f hlies hfile hfails⟩⟩

/-- Where saving adds to the files, every record is loaded as before whose file is left out. -/
theorem loadsAlike_of_grows {X : Place → Prop} (hn : Path.isPlainName s.fileName = true)
    (closed : t.Closed) (straight : t.Straight s.root) (hv : a.isValid = true)
    (h : Grows X (· <+: Path.place (s.directory a)) t t')
    (hX : ∀ p, X p → p.length = (Path.place s.root).length + 2)
    (hfile : b.isValid = true → ¬ X (Path.place (s.file b))) : s.LoadsAlike b t t' := by
  cases hdown : s.loadDown with
  | true => exact .inl (by simp only [load, hdown, if_true]; rfl)
  | false =>
    cases hb : b.isValid with
    | false => exact .inl (load_congr fun hv' => by cases hb.symm.trans hv')
    | true =>
      have hlength : (Path.place (s.file b)).length = (Path.place s.root).length + 2 := by
        rw [place_file s hb hn]
        simp
      -- the file of a record lies deeper than the directories that were made
      have hdir : ¬ Path.place (s.file b) <+: Path.place (s.directory a) := by
        intro hbelow
        have hle := hbelow.length_le
        rw [hlength, directory, Path.place_join _ (Account.isPlainName_of_isValid hv)] at hle
        simp at hle
      have hfree : ∀ q, q <+: Path.place (s.file b) → ¬ X q := by
        intro q hq hXq
        rw [hq.eq_of_length ((hX q hXq).trans hlength.symm)] at hXq
        exact hfile hb hXq
      have hjoin := straight.join (Account.isPlainName_of_isValid hb)
      obtain hsame | ⟨hmissing, hnone, hlong, hname⟩ := h.read_cases closed hjoin hn hfree hdir
      · exact .inl (load_congr fun _ => hsame)
      · refine .inr ⟨load_of_read_error hb hdown hnone, fun hreach => ?_,
          .inl ⟨load_of_read_error hb hdown hlong, hname⟩⟩
        cases hmissing.symm.trans hreach

/-- The files that saving a record writes lie at the same depth. -/
theorem length_written (hn : Path.isPlainName s.fileName = true) (hv : a.isValid = true)
    {p : Place} (hp : p = Path.place (s.beside a) ∨ p = Path.place (s.file a)) :
    p.length = (Path.place s.root).length + 2 := by
  rcases hp with rfl | rfl
  · rw [place_beside s hv hn]
    simp
  · rw [place_file s hv hn]
    simp

/-- The records of two accounts lie in two places. -/
theorem file_ne_file (hn : Path.isPlainName s.fileName = true) (hv : a.isValid = true)
    (hb : b.isValid = true) (hne : b ≠ a) : Path.place (s.file b) ≠ Path.place (s.file a) := by
  rw [place_file s hv hn, place_file s hb hn]
  intro he
  have hname := (List.cons.inj (List.append_cancel_left he)).1
  exact hne (by cases a; cases b; cases hname; rfl)

/-- A record that could not be saved leaves what is loaded for every account. -/
theorem loadsAlike_of_error (hn : Path.isPlainName s.fileName = true) (closed : t.Closed)
    {f : RecordFault} (h : s.save r t = .error f t') (b : Account) : s.LoadsAlike b t t' := by
  cases hv : r.account.isValid with
  | false =>
    obtain ⟨g, hg⟩ := save_refused (s := s) (.inl hv) t
    cases h.symm.trans hg
    exact .refl s b t
  | true =>
    have hfree : b.isValid = true → Path.place (s.file b) ≠ Path.place (s.beside r.account) :=
      beside_ne_file hn hv
    -- The root is straight, or it is missing and not straight, or nothing is saved in it.
    obtain straight | ⟨hs, hmissing⟩ | ⟨g, hg⟩ := root_cases hn r t
    · have hgrows := grows_of_error hn (madeAt_of_straight closed straight hv) h
      exact loadsAlike_of_grows hn closed straight hv hgrows
        (fun p hp => length_written hn hv (.inl hp)) hfree
    · have hgrows := grows_of_error (D := fun _ => True) hn (fun _ _ _ => trivial) h
      exact loadsAlike_of_missing hn hmissing hs hgrows hfree
    · cases h.symm.trans hg
      exact .refl s b t

/-- A record that was saved leaves what is loaded for every other account. -/
theorem loadsAlike_of_save (hn : Path.isPlainName s.fileName = true) (closed : t.Closed)
    (h : s.save r t = .ok () t') (hb : b ≠ r.account) : s.LoadsAlike b t t' := by
  obtain ⟨hv, -⟩ := read_of_save hn (bytes_ne_nil r) h
  have hfree : b.isValid = true → ¬ (Path.place (s.file b) = Path.place (s.beside r.account) ∨
      Path.place (s.file b) = Path.place (s.file r.account)) := fun hb' =>
    not_or.2 ⟨beside_ne_file hn hv hb', file_ne_file hn hv hb' hb⟩
  -- As after a failed save, with the record itself as a second place that was written.
  obtain straight | ⟨hs, hmissing⟩ | ⟨g, hg⟩ := root_cases hn r t
  · have hgrows := grows_of_save hn (madeAt_of_straight closed straight hv) h
    exact loadsAlike_of_grows hn closed straight hv hgrows (fun p hp => length_written hn hv hp)
      hfree
  · have hgrows := grows_of_save (D := fun _ => True) hn (fun _ _ _ => trivial) h
    exact loadsAlike_of_missing hn hmissing hs hgrows hfree
  · cases h.symm.trans hg

end RecordStore

/-! ## Names that are too long -/

namespace Path

/-- A letter again and again has as many bytes. -/
theorem utf8ByteSize_replicate (n : Nat) (c : Char) :
    (String.ofList (List.replicate n c)).utf8ByteSize = n * c.utf8Size := by
  have hsize : ∀ s : String, s.utf8ByteSize = (Utf8.encode s).length := fun s => by
    simp [Utf8.encode]
  rw [hsize, Utf8.encode_ofList, List.length_flatMap, List.map_replicate, List.sum_replicate_nat,
    String.length_utf8EncodeChar]

/-- A letter again and again is a plain name. -/
theorem isPlainName_replicate {n : Nat} {c : Char} (hn : 2 < n) (hc : c ≠ '/' ∧ c ≠ '\\') :
    isPlainName (String.ofList (List.replicate n c)) = true := by
  have hlist : (String.ofList (List.replicate n c)).toList = List.replicate n c :=
    String.toList_ofList
  have hne : ∀ s : String, s.toList.length ≤ 2 → String.ofList (List.replicate n c) ≠ s := by
    rintro s hs rfl
    rw [hlist, List.length_replicate] at hs
    exact Nat.not_le_of_lt hn hs
  refine isPlainName_iff.2 ⟨hne _ (by decide), fun d hd => ?_, hne _ (by decide),
    hne _ (by decide)⟩
  rw [hlist] at hd
  exact List.eq_of_mem_replicate hd ▸ hc

/-- Below a path that ends firmly a name is behind one slash. -/
theorem join_eq {dir name : String} (hd : EndsFirmly dir) (hn : isPlainName name = true) :
    join dir name = dir ++ "/" ++ name := by
  refine String.toList_injective (List.reverse_injective ?_)
  rw [toList_join hd hn]
  simp

end Path

namespace RecordStore

variable {s : RecordStore} {r : SessionRecord} {t t' : FileTree} {a : Account}

/-- What too long a name in the directory of an account is read as: the name is looked at only once
the directory is there. -/
theorem read_of_long (hn : Path.isPlainName s.fileName = true)
    (hlong : maxName < s.fileName.utf8ByteSize) (hzero : '\x00' ∉ (s.file a).toList)
    (hfit : (s.file a).utf8ByteSize ≤ maxPath) (t : FileTree) :
    t.read (s.file a) = match t.walk (s.directory a) with
      | .ok _ => .error .nameTooLong
      | .error f => .error f := by
  have hresolve := resolve_join t (s.directory a) hn
  rw [← file, if_neg (mt List.contains_iff_mem.1 hzero),
    if_neg (Nat.not_lt_of_le hfit)] at hresolve
  rw [walk]
  cases hwalk : (Path.names (s.directory a)).foldlM t.enter (Path.origin (s.directory a)) with
  | error f =>
    rw [hwalk] at hresolve
    exact read_of_error hresolve
  | ok p =>
    simp only [hwalk, if_pos hlong] at hresolve
    exact read_of_error hresolve

/-- A record is not saved beside too long a name, but the directory of its account is made. -/
theorem save_of_long (hn : Path.isPlainName s.fileName = true)
    (hlong : maxName < s.fileName.utf8ByteSize) (hv : r.account.isValid = true)
    (hd : s.saveDown = false)
    (h : Files.createDirectories (s.directory r.account) t = .ok () t') :
    ∃ f, s.save r t = .error f t' := by
  have hbeside : maxName < (Path.besideName s.fileName).utf8ByteSize := by
    rw [Path.besideName, String.utf8ByteSize_append]
    exact Nat.lt_of_lt_of_le hlong (Nat.le_add_right _ _)
  -- The file beside has a longer name still, so it is the first thing that cannot be made.
  obtain ⟨f, hf⟩ : ∃ f, t'.resolve (s.beside r.account) = .error f := by
    obtain ⟨f, -, hunfit⟩ | hresolve :=
      resolve_join_cases (s.directory r.account) (Path.isPlainName_beside hn)
    · exact ⟨f, hunfit t'⟩
    · have hlast := hresolve t'
      rw [show t'.walk (s.directory r.account) = _ from Files.createDirectories_reaches h] at hlast
      simp only [if_pos hbeside] at hlast
      exact ⟨_, hlast⟩
  refine ⟨.storage (s.beside r.account) f, ?_⟩
  simp only [save_eq hv hn hd, h, Files.write_of_error hf]

/-- That the name of a record is too long comes to light when its directory has been made, for a
record that is not saved. -/
theorem load_of_long (hn : Path.isPlainName s.fileName = true)
    (hlong : maxName < s.fileName.utf8ByteSize) (hzero : '\x00' ∉ (s.file r.account).toList)
    (hfit : (s.file r.account).utf8ByteSize ≤ maxPath) (hv : r.account.isValid = true)
    (hsave : s.saveDown = false) (hload : s.loadDown = false)
    (hmissing : t.walk (s.directory r.account) = .error .notFound)
    (hmade : Files.createDirectories (s.directory r.account) t = .ok () t') :
    (∃ f, s.save r t = .error f t') ∧ s.load t r.account = .ok none ∧
      s.load t' r.account = .error (.storage (s.file r.account) .nameTooLong) := by
  have hbefore := read_of_long hn hlong hzero hfit t
  have hafter := read_of_long hn hlong hzero hfit t'
  rw [hmissing] at hbefore
  rw [show t'.walk (s.directory r.account) = _ from Files.createDirectories_reaches hmade] at hafter
  exact ⟨save_of_long hn hlong hv hsave hmade, load_of_read_error hv hload hbefore,
    load_of_read_error hv hload hafter⟩

end RecordStore

/-! ## Records to try -/

namespace Sample

/-- The record of an account that deployed an archive at the start of all time. -/
def saved (a : Account) : SessionRecord where
  resource := ⟨a, "app", ⟨0⟩, 1⟩
  account := a
  archive := "app.json"
  status := .deployed
  createdAt := SessionRecord.epoch
  updatedAt := SessionRecord.epoch

/-- The record of the sample is plain. -/
theorem plain_saved (a : Account) : (saved a).Plain :=
  have hepoch : SessionRecord.epoch.Plain := ⟨by decide, by decide, by decide, by decide⟩
  ⟨show 1 < Nat.pow 2 32 by decide, hepoch, hepoch⟩

/-- Where records are kept below a directory. -/
def shelf (root name : String) : RecordStore := { root := root, fileName := name }

/-- The record of an account under too long a name. -/
theorem load_cramped {name : String} (hplain : Path.isPlainName name = true)
    (hsize : name.utf8ByteSize = 256) (hzero : '\x00' ∉ name.toList) :
    let s := shelf "root" name
    ∃ f t', s.save (saved ⟨"acme"⟩) .empty = .error f t' ∧ s.load .empty ⟨"acme"⟩ = .ok none ∧
      s.load t' ⟨"acme"⟩ = .error (.storage (s.file ⟨"acme"⟩) .nameTooLong) := by
  intro s
  have hv : Account.isValid ⟨"acme"⟩ = true := by decide
  have hdir : s.directory ⟨"acme"⟩ = "root/acme" := show Path.join "root" "acme" = _ by decide
  have hfile : s.file ⟨"acme"⟩ = "root/acme" ++ "/" ++ name :=
    (Path.join_eq (Path.endsFirmly_join "root" hv) hplain).trans (by rw [← hdir]; rfl)
  have hlong : maxName < name.utf8ByteSize := by rw [hsize]; decide
  have hfit : (s.file ⟨"acme"⟩).utf8ByteSize ≤ maxPath := by
    rw [hfile, String.utf8ByteSize_append, hsize]
    decide
  have hzero' : '\x00' ∉ (s.file ⟨"acme"⟩).toList := by
    rw [hfile, String.toList_append, List.mem_append, not_or]
    exact ⟨by decide, hzero⟩
  -- Nothing is there yet, and only the directory will be.
  have hmissing : FileTree.empty.walk (s.directory ⟨"acme"⟩) = .error .notFound := by
    rw [hdir]
    decide +kernel
  obtain ⟨⟨⟩, t', hmade⟩ : ∃ a t', Files.createDirectories "root/acme" .empty = .ok a t' :=
    exists_ok_of_isOk (by decide +kernel)
  rw [← hdir] at hmade
  obtain ⟨⟨f, hsave⟩, hbefore, hafter⟩ := RecordStore.load_of_long (r := saved ⟨"acme"⟩)
    hplain hlong hzero' hfit hv rfl rfl hmissing hmade
  exact ⟨f, t', hsave, hbefore, hafter⟩

end Sample

/-! ## Atomicity -/

/-- Saving a record is atomic, as long as the files are closed and the name of the file is plain. If
it fails, every record is loaded as before. If it succeeds, the record is loaded, nothing is left
beside its file, and the record of every other account is loaded as before. -/
theorem save_is_atomic (s : RecordStore) (named : Path.isPlainName s.fileName = true)
    (r : SessionRecord) (t : FileTree) (closed : t.Closed) :
    match s.save r t with
    | .error _ t' => ∀ a, s.LoadsAlike a t t'
    | .ok () t' =>
      (r.Plain → s.loadDown = false → s.load t' r.account = .ok (some r)) ∧
        t'.find? (Path.place (s.beside r.account)) = none ∧
        ∀ a, a ≠ r.account → s.LoadsAlike a t t' := by
  cases h : s.save r t with
  | error f t' => exact fun a => RecordStore.loadsAlike_of_error named closed h a
  | ok _ t' =>
    obtain ⟨hv, -, -, hread⟩ := RecordStore.read_of_save named (RecordStore.bytes_ne_nil r) h
    exact ⟨fun plain up => RecordStore.load_of_read hv up plain.sound hread,
      RecordStore.beside_of_save named h,
      fun a ha => RecordStore.loadsAlike_of_save named closed h ha⟩

open Sample in
/-- The first record of an account is saved, and its neighbour still has none. -/
theorem first_record_is_saved :
    let s := shelf "root" "r"
    Path.isPlainName s.fileName = true ∧ FileTree.empty.Closed ∧ (saved ⟨"acme"⟩).Plain ∧
      ∃ t', s.save (saved ⟨"acme"⟩) .empty = .ok () t' ∧
        s.load t' ⟨"acme"⟩ = .ok (some (saved ⟨"acme"⟩)) ∧
        t'.find? (Path.place (s.beside ⟨"acme"⟩)) = none ∧
        s.LoadsAlike ⟨"beta"⟩ .empty t' := by
  intro s
  have named : Path.isPlainName s.fileName = true := by decide
  have hatomic := save_is_atomic s named (saved ⟨"acme"⟩) .empty .empty
  obtain ⟨⟨⟩, t', hsave⟩ : ∃ a t', s.save (saved ⟨"acme"⟩) .empty = .ok a t' :=
    exists_ok_of_isOk (by decide +kernel)
  rw [hsave] at hatomic
  obtain ⟨hload, hbeside, hothers⟩ := hatomic
  exact ⟨named, .empty, plain_saved _, t', hsave, hload (plain_saved _) rfl, hbeside,
    hothers ⟨"beta"⟩ (by decide)⟩

open Sample in
/-- Saving a record can bring to light that the name of its file is too long, and what lies behind
a path that steps up. -/
theorem saving_brings_to_light :
    let r := saved ⟨"acme"⟩
    let cramped := shelf "root" (String.ofList (List.replicate 256 'r'))
    let winding := shelf "x/../root" "r"
    r.Plain ∧
      -- where a record cannot be saved
      (Path.isPlainName cramped.fileName = true ∧ FileTree.empty.Closed ∧
        ∃ f t', cramped.save r .empty = .error f t' ∧ cramped.load .empty r.account = .ok none ∧
          cramped.load t' r.account = .error (.storage (cramped.file r.account) .nameTooLong)) ∧
      -- where it is saved
      Path.isPlainName winding.fileName = true ∧ ∃ t t' : FileTree, t.Closed ∧
        winding.save r t = .ok () t' ∧ winding.load t ⟨"beta"⟩ = .ok none ∧
        winding.load t' ⟨"beta"⟩ = .ok (some (saved ⟨"beta"⟩)) := by
  intro r cramped winding
  refine ⟨plain_saved _, ⟨?_, .empty, ?_⟩, by decide, ?_⟩
  · exact Path.isPlainName_replicate (by decide) (by decide)
  · refine load_cramped (Path.isPlainName_replicate (by decide) (by decide))
      ((Path.utf8ByteSize_replicate 256 'r').trans (by decide)) fun hm => ?_
    rw [String.toList_ofList] at hm
    exact absurd (List.eq_of_mem_replicate hm) (by decide)
  · -- the neighbour has saved a record by a path that does not step up
    let t := finalState ((shelf "root" "r").save (saved ⟨"beta"⟩)) .empty
    have closed : t.Closed := RecordStore.save_closed (by decide) _ .empty
    have hv : Account.isValid ⟨"beta"⟩ = true := by decide
    have hmissing : t.read (winding.file ⟨"beta"⟩) = .error .notFound := by decide +kernel
    have hread : (finalState (winding.save r) t).read (winding.file ⟨"beta"⟩) =
        .ok (RecordStore.bytes (saved ⟨"beta"⟩)) := by decide +kernel
    obtain ⟨⟨⟩, t', hsave⟩ : ∃ a t', winding.save r t = .ok a t' :=
      exists_ok_of_isOk (by decide +kernel)
    rw [finalState_of_ok hsave] at hread
    exact ⟨t, t', closed, hsave, RecordStore.load_of_read_error hv rfl hmissing,
      RecordStore.load_of_read hv rfl (plain_saved _).sound hread⟩

end Deployment
