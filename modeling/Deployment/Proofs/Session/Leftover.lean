import Deployment.Proofs.Session.Refusal
import Deployment.Proofs.Session.Unloaded

/-! # Discards before the first part

An upload that is thrown away takes its archive with it, by the name of the archive. As long as no
part was accepted nothing under that name is its own: what is taken away was left by others.

* **`FileTree.HasFile`** — a file is there to be removed; **`FileTree.Refuses`** — it cannot
  be opened.
* **`Unsent`** — an upload of which no part was accepted has not opened its archive.
* **`FirstPartFails`** — the ways in which a first part can fail.
* **`Discards`** — what a discard does to uploads and files.
* **`discard_takes_leftover`** — what becomes of an upload whose first part fails.
* **`refused_leftover_is_deleted`** — a file that refused to be opened is deleted as well.
* **`leftover_is_deleted`** — what lay under the name when the upload began is gone. -/

namespace Deployment

open Stateful FileTree SessionManager

/-! ## What is removed -/

/-- The path leads to what is no directory. -/
def FileTree.HasFile (t : FileTree) (path : String) : Prop :=
  ∃ target e, t.resolve path = .ok target ∧ target.slash = false ∧
    t.find? target.place = some e ∧ e ≠ .directory

/-- The path leads to a file that refuses to be written. -/
def FileTree.Refuses (t : FileTree) (path : String) : Prop :=
  ∃ target n, t.resolve path = .ok target ∧ target.slash = false ∧
    t.find? target.place = some (.file n) ∧ t.refuses n = true

namespace FileTree

variable {t : FileTree} {path : String}

/-- At the place of a file there is something, and no directory. -/
theorem HasFile.find? (h : t.HasFile path) :
    t.find? (Path.place path) ≠ none ∧ t.find? (Path.place path) ≠ some .directory := by
  obtain ⟨target, e, hr, -, hf, he⟩ := h
  rw [← resolve_place hr, hf]
  exact ⟨nofun, fun hd => he (Option.some.inj hd)⟩

/-- What can be read is no directory. -/
theorem hasFile_of_read {bytes : List UInt8} (h : t.read path = .ok bytes) : t.HasFile path := by
  cases hr : t.resolve path with
  | error f => simp only [FileTree.read, look, hr, Failing.error_bind] at h; cases h
  | ok target =>
    rw [read_of_resolve hr] at h
    split at h
    · cases h
    · cases h
    · split at h <;> cases h
    next k hf =>
      split at h
      · cases h
      next hs => exact ⟨target, .file k, hr, by simpa using hs, hf, fun he => by cases he⟩

/-- A file that refuses to be written is there to be removed. -/
theorem Refuses.hasFile (h : t.Refuses path) : t.HasFile path := by
  obtain ⟨target, n, hr, hs, hf, -⟩ := h
  exact ⟨target, .file n, hr, hs, hf, nofun⟩

end FileTree

namespace Files

variable {t : FileTree} {path : String}

/-- A file that is there is removed. -/
theorem remove_of_hasFile (h : t.HasFile path) :
    remove path t = .ok () (t.restrict (· ≠ Path.place path)) := by
  obtain ⟨target, e, hr, hs, hf, he⟩ := h
  rw [remove_of_resolve hr, hf, ← resolve_place hr]
  cases e with
  | directory => exact absurd rfl he
  | file n => rw [hs]; rfl
  | fullDevice => rw [hs]; rfl

/-- Where no file is there, removing it changes nothing. -/
theorem remove_of_not_hasFile (h : ¬ t.HasFile path) : finalState (remove path) t = t := by
  cases hr : t.resolve path with
  | error f =>
    have hfault : remove path t = .error f t := by
      simp only [remove, run_bind, ask, look, hr, Failing.error_bind]
    exact finalState_of_error hfault
  | ok target =>
    have hremove := remove_of_resolve hr
    split at hremove
    · exact finalState_of_error hremove
    · exact finalState_of_error hremove
    next e hdir hf =>
      split at hremove
      · exact finalState_of_error hremove
      next hs =>
        refine absurd ⟨target, e, hr, by simpa using hs, hf, ?_⟩ h
        rintro rfl
        exact hdir rfl

/-- Removing a file changes nothing exactly where no file is there. -/
theorem remove_unchanged_iff : finalState (remove path) t = t ↔ ¬ t.HasFile path := by
  refine ⟨fun heq h => ?_, remove_of_not_hasFile⟩
  rw [finalState_of_ok (remove_of_hasFile h)] at heq
  have hgone : (t.restrict (· ≠ Path.place path)).find? (Path.place path) = none :=
    (find?_restrict_ne h.find?.2 _).trans (if_pos rfl)
  rw [heq] at hgone
  exact h.find?.1 hgone

/-- A file in a directory that was removed is there no more. -/
theorem read_of_removed {dir name : String} (hn : Path.isPlainName name = true)
    (h : t.HasFile (Path.join dir name)) :
    (finalState (remove (Path.join dir name)) t).read (Path.join dir name) =
      .error .notFound := by
  have ⟨target, e, hr, _⟩ := h
  have hreach := (reaches_of_resolve_join hn hr).1
  have hresolve := (resolve_join_congr hn hreach
    ((remove_changes (Path.join dir name) t).reaches hreach)).trans hr
  have hgone := (find?_restrict_ne h.find?.2 (Path.place (Path.join dir name))).trans (if_pos rfl)
  rw [read_of_resolve hresolve, resolve_place hr, finalState_of_ok (remove_of_hasFile h), hgone]

end Files

/-- A file that refuses to be written cannot be opened as an archive. -/
theorem Writer.open_of_refuses {t : FileTree} {path : String} (h : t.Refuses path) :
    Writer.open path t = .error .refused t := by
  obtain ⟨target, n, hr, hs, hf, hrefuses⟩ := h
  have hcreate : Files.create path t = .error .refused t := by
    rw [Files.create_of_resolve hr, hs, hf]
    exact if_pos hrefuses
  rw [Writer.open, run_bind, hcreate]

/-! ## Before the first part -/

/-- An upload of which no part was accepted has not opened its archive. -/
structure Upload.Unsent (u : Upload) : Prop where
  status : u.status = .registered ∨ u.status = .verifying
  closed : u.writer = none

/-- Every upload in progress of which no part was accepted has not opened its archive. -/
def Unsent (h : List Note) (m : SessionManager) : Prop :=
  ∀ a n u, m.InProgress a n u → partsOf n h = [] → u.Unsent

namespace Unsent

variable {h h' : List Note} {m m' : SessionManager} {a : Account} {n : Nat} {u v : Upload}

/-- At first there is no upload. -/
theorem start (s : Settings) (t : FileTree) (md : Metadata) :
    Unsent [] (SessionManager.start s t md) := fun _ _ _ hc => nomatch hc.find

/-- Where what is in progress was so before or has not opened its archive, all is as before. -/
theorem frame (hu : Unsent h m) (notes : List Note)
    (hc : ∀ b k w, m'.InProgress b k w → partsOf k (h ++ notes) = [] →
      m.InProgress b k w ∨ w.Unsent) : Unsent (h ++ notes) m' := by
  intro b k w hw hp
  have hparts := hp
  rw [partsOf_append, List.append_eq_nil_iff] at hparts
  exact (hc b k w hw hp).elim (fun before => hu b k w before hparts.1) id

/-- After an upload became another or ended the others are as they were. -/
theorem of_put (hl : Linked h m) (hc : m.InProgress a n u) {b : Account} {k : Nat} {w : Upload}
    (hw : m'.InProgress b k w) (hfind : ∀ b k, m'.find? b = some k → m.find? b = some k)
    (hup : m'.uploads = (m.put n v).uploads) :
    m.InProgress b k w ∨ m'.InProgress a n v ∧ k = n ∧ w = v := by
  obtain ⟨w', hw'⟩ := hl.known (hfind b k hw.find)
  by_cases hkn : k = n
  · subst hkn
    have hwv : w = v := by
      have := hw.known
      rw [hup, Linked.known_put_self hc.known] at this
      exact (Option.some.inj this).symm
    -- Two accounts with one upload would be one account, since the upload names its own.
    have hba : b = a := by
      rw [← hl.own hc, ← hl.own hw', Option.some.inj (hc.known.symm.trans hw'.known)]
    subst hba hwv
    exact .inr ⟨hw, rfl, rfl⟩
  · refine .inl ⟨hfind b k hw.find, ?_⟩
    rw [← hw.known, hup]
    exact (List.getElem?_set_ne (Ne.symm hkn)).symm

/-- A registration begins an upload of which no part was accepted. -/
theorem of_begin (hl : Linked h m) (hv : v.Unsent) {b : Account} {k : Nat} {w : Upload}
    (hw : m'.InProgress b k w)
    (hfind : ∀ b k, m'.find? b = some k → (m.begin a v).find? b = some k)
    (hup : m'.uploads = m.uploads ++ [v]) : m.InProgress b k w ∨ w.Unsent := by
  have hknown := hw.known
  have hf := hfind b k hw.find
  rw [hup] at hknown
  rw [Linked.find?_begin] at hf
  -- The new session has the new upload; every other has one that was there before.
  split at hf
  · obtain rfl := Option.some.inj hf
    rw [List.getElem?_concat_length] at hknown
    exact .inr (Option.some.inj hknown ▸ hv)
  · obtain ⟨w', hw'⟩ := hl.known hf
    exact .inl (Option.some.inj ((known_begin hw'.known v).symm.trans hknown) ▸ hw')

/-- What is in progress after another upload ended was so before. -/
theorem find?_of_unlink {b : Account} {k : Nat} (hf : (unlink a m).find? b = some k) :
    m.find? b = some k := by
  rw [Linked.find?_unlink] at hf
  split at hf
  · cases hf
  · exact hf

/-- After an upload has ended the others are as they were. -/
theorem of_unlink (hu : Unsent h m) (hl : Linked h m) (hc : m.InProgress a n u)
    (hfind : m'.find? = (unlink a m).find?) (hup : ∃ v, m'.uploads = (m.put n v).uploads)
    (notes : List Note) : Unsent (h ++ notes) m' := by
  obtain ⟨v, hup⟩ := hup
  refine hu.frame notes fun b k w hw _ => ?_
  have hf : ∀ b k, m'.find? b = some k → m.find? b = some k := fun b k hk =>
    find?_of_unlink (hfind ▸ hk)
  obtain before | ⟨hself, -⟩ := of_put hl hc hw hf hup
  · exact .inl before
  · have hnone : m'.find? a = none := by rw [hfind, Linked.find?_unlink, if_pos rfl]
    exact absurd (hnone.symm.trans hself.find) nofun

/-- Every event leaves the archives closed of which no part was accepted. -/
theorem step {e : Event} {notes : List Note} (hu : Unsent h m) (hl : Linked h m)
    (he : Effect m e m' notes) : Unsent (h ++ notes) m' := by
  cases he with
  | nothing => exact hu.frame [] fun b k w hw _ => .inl hw
  | worked => exact hu.frame [] fun b k w hw _ => .inl ⟨hw.find, hw.known⟩
  | files => exact hu.frame [] fun b k w hw _ => .inl ⟨hw.find, hw.known⟩
  | outage => exact hu.frame [] fun b k w hw _ => .inl ⟨hw.find, hw.known⟩
  | @registered _ _ _ _ _ u _ valid plain free idle new =>
    have hv : u.Unsent := new ▸ ⟨.inl rfl, rfl⟩
    exact hu.frame [] fun b k w hw _ => of_begin hl hv hw (fun _ _ hk => hk) rfl
  | @unprepared _ _ _ _ _ u _ _ valid plain free idle new =>
    have hv : u.Unsent := new ▸ ⟨.inl rfl, rfl⟩
    exact hu.frame [] fun b k w hw _ => of_begin hl hv hw (fun _ _ hk => find?_of_unlink hk) rfl
  -- The upload that got a part has one in the journal, so it is none of those asked about.
  | accepted current =>
    refine hu.frame _ fun b k w hw hp => ?_
    obtain before | ⟨-, rfl, -⟩ := of_put hl current hw (fun _ _ hk => hk) rfl
    · exact .inl before
    · simp [partsOf] at hp
  -- An upload that is finalized has no writer left, whether or not it had one.
  | submitted current =>
    refine hu.frame _ fun b k w hw _ => ?_
    obtain before | ⟨-, -, rfl⟩ := of_put hl current hw (fun _ _ hk => hk) rfl
    · exact .inl before
    · exact .inr ⟨.inr rfl, rfl⟩
  | discarded current =>
    refine hu.of_unlink hl current ?_ ?_ []
    · rw [hl.own current]
      rfl
    · exact ⟨_, rfl⟩
  | failed current =>
    refine hu.of_unlink hl current ?_ ?_ []
    · rw [hl.own current]
      rfl
    · exact ⟨_, rfl⟩
  | recorded pending ended current =>
    refine hu.of_unlink hl current ?_ ?_ _
    · rfl
    · exact ⟨_, rfl⟩
  | recordedNowhere pending ended nobody => exact (hl.not_nowhere pending nobody).elim

/-- After every run the archives are closed of which no part was accepted. -/
theorem after (s : Settings) (t : FileTree) (md : Metadata) (es : List Event) :
    Sited s ((SessionManager.start s t md).after es) ∧
      Unsent ((SessionManager.start s t md).journal es)
        ((SessionManager.start s t md).after es) := by
  have h := @after_induct_all (fun h m => Linked h m ∧ Sited s m ∧ Unsent h m)
    (fun h m e ⟨hl, hs, hu⟩ =>
      ⟨hl.step (effect e m), hs.step hl (effect e m), hu.step hl (effect e m)⟩)
    es [] _ ⟨.start s t md, .start s t md, .start s t md⟩
  rw [List.nil_append] at h
  exact h.2

end Unsent

/-! ## First parts that fail -/

/-- The ways in which the first part of an upload can fail: it is empty or left out, or the archive
cannot be opened. -/
inductive FirstPartFails (a : Account) (archive : String) (t : FileTree) :
    Option (List UInt8) → SessionFault → Prop where
  | empty {part : Option (List UInt8)} (nothing : part.getD [] = []) :
      FirstPartFails a archive t part (.badRequest "invalid chunk received")
  | unopened {bytes : List UInt8} {f : StorageFault} {t' : FileTree} (some : bytes ≠ [])
      (fault : Writer.open archive t = .error f t') :
      FirstPartFails a archive t (.some bytes) (.storage a f)

/-- What a discard does: the account has no upload any more and the others have theirs, and of the
files it takes away what lies under the name of the archive, whether or not the upload opened it. -/
structure Discards (a : Account) (archive : String) (m m' : SessionManager) : Prop where
  gone : m'.find? a = none
  others : ∀ b, b ≠ a → m'.find? b = m.find? b
  /-- All files stay as they are exactly if none lies there. -/
  spares : m'.plant.files = m.plant.files ↔ ¬ m.plant.files.HasFile archive
  takes : m.plant.files.HasFile archive → m'.plant.files.read archive = .error .notFound
  same : ∀ p, p ≠ Path.place archive → Same m.plant.files m'.plant.files p

namespace SessionManager

variable {h : List Note} {s : Settings} {m : SessionManager} {a : Account} {n : Nat} {u : Upload}

/-- An upload that is thrown away over its own files is discarded. -/
theorem discards (hl : Linked h m) (hs : Sited s m) (hc : m.InProgress a n u) :
    Discards a u.archive m (withFiles (finalState (Files.remove u.archive) m.plant.files)
      (unlink u.account (put n u.thrownAway m))) := by
  -- Only the session of this account goes.
  have hfind : ∀ b, (unlink u.account (put n u.thrownAway m)).find? b =
      if a = b then none else m.find? b := by
    intro b
    rw [hl.own hc]
    exact Linked.find?_unlink _ a b
  obtain ⟨name, hn, -, harch⟩ := (hs.placed n u hc.known).archive
  exact
    { gone := (hfind a).trans (if_pos rfl)
      others := fun b hb => (hfind b).trans (if_neg (Ne.symm hb))
      spares := Files.remove_unchanged_iff
      takes := fun hf => by
        rw [harch] at hf ⊢
        exact Files.read_of_removed hn hf
      same := (Files.remove_changes u.archive m.plant.files).same }

/-- A first part that fails throws the upload away. -/
theorem append_of_fails {part : Option (List UInt8)} {f : SessionFault}
    (hc : m.InProgress a n u) (hs : u.status = .registered) (hw : u.writer = none)
    (hf : FirstPartFails a u.archive m.plant.files part f) :
    append a (part.getD []) m =
      .error f (withFiles (finalState (Files.remove u.archive) m.plant.files)
        (unlink u.account (put n u.thrownAway m))) := by
  have hmay : u.status.allows .uploading = true := Status.allows_uploading.2 (.inl hs)
  simp only [append, run_bind, handle_of_find hc.find]
  -- Either there is nothing to write, or the archive cannot be opened and is as it was before.
  cases hf with
  | empty nothing => rw [nothing, appendTo_of_empty hc.known hmay]
  | @unopened bytes f t' some fault =>
    have hwrite : u.write bytes m.plant.files = .error f t' := by
      simp only [Upload.write, hw, run_bind, fault]
    have hne : bytes.isEmpty = false := by simpa using some
    rw [Option.getD_some, appendTo_of_fault hc.known hmay hne hwrite,
      Files.create_error (Writer.open_eq_error fault)]

/-- A part that comes while the upload waits for its deployment is refused. -/
theorem append_of_verifying (hc : m.InProgress a n u) (hs : u.status = .verifying)
    (bytes : List UInt8) :
    append a bytes m = .error (.badRequest (Status.verifying.refusal .uploading)) m := by
  have hmay : Status.verifying.allows .uploading = false := rfl
  simp only [append, run_bind, handle_of_find hc.find, appendTo, upload_of_known hc.known, allow,
    hs, hmay, Bool.false_eq_true, if_false, run_throw]

end SessionManager

/-- A part whose token names somebody comes to the upload of its account. -/
theorem Service.chunk_of_named {token : Token} (hname : token.isBlank = false) (r : ResourceId)
    (part : Option (List UInt8)) (m : SessionManager) :
    Service.chunk token r part m = SessionManager.append r.account (part.getD []) m := by
  simp only [Service.chunk, Service.check, hname, Bool.false_eq_true, if_false, run_bind, run_pure]

/-- An upload of which no part was accepted is discarded with its first part if that fails, be it
that the part is empty or that the archive cannot be opened, unless the upload waits for its
deployment already: then the part is refused and nothing changes. The discard leaves all files as
they are exactly if no file lies under the name of the archive. A file that lies there is deleted,
whoever left it. -/
theorem discard_takes_leftover (s : Settings) (t : FileTree) (md : Metadata) (es : List Event)
    {a : Account} {n : Nat} {u : Upload} (live : ((start s t md).after es).InProgress a n u)
    (unsent : partsOf n ((start s t md).journal es) = []) {token : Token}
    (named : token.isBlank = false) {r : ResourceId} (own : r.account = a)
    {part : Option (List UInt8)} {f : SessionFault}
    (fails : FirstPartFails a u.archive ((start s t md).after es).plant.files part f) :
    let m := (start s t md).after es
    (u.status = .verifying ∧ Service.chunk token r part m =
        .error (.badRequest (Status.verifying.refusal .uploading)) m) ∨
      (u.status = .registered ∧ ∃ m', Service.chunk token r part m = .error f m' ∧
        Discards a u.archive m m') := by
  intro m
  have hl : Linked ((start s t md).journal es) m := Linked.after s t md es
  obtain ⟨hsited, hunsent⟩ := Unsent.after s t md es
  obtain ⟨hstatus, hclosed⟩ := hunsent a n u live unsent
  rw [Service.chunk_of_named named, own]
  -- An upload without a part is waiting for its first one or has been finalized; only the former
  -- can still be thrown away.
  rcases hstatus with hs | hs
  · exact .inr ⟨hs, _, append_of_fails live hs hclosed fails, discards hl hsited live⟩
  · exact .inl ⟨hs, append_of_verifying live hs _⟩

open Sample in
/-- In an empty directory a discard leaves all files as they are. -/
theorem first_discard_spares_files :
    let m := service.after [begins 0]
    ∃ m', Service.chunk ⟨"alice"⟩ (fresh 0).resource none m =
        .error (.badRequest "invalid chunk received") m' ∧
      m'.find? account = none ∧ m'.plant.files = m.plant.files := by
  intro m
  have live : m.InProgress account 0 (fresh 0) := ⟨by decide +kernel, by rfl⟩
  have named : Token.isBlank ⟨"alice"⟩ = false := by decide +kernel
  have fails : FirstPartFails account job.archive m.plant.files none
    (.badRequest "invalid chunk received") := .empty rfl
  obtain ⟨hs, -⟩ | ⟨-, m', hchunk, hd⟩ :=
    discard_takes_leftover settings .empty .empty [begins 0] live (by decide +kernel) named
      (r := (fresh 0).resource) rfl fails
  · cases hs
  · have hnone : m.plant.files.find? (Path.place (fresh 0).archive) = none := by decide +kernel
    exact ⟨m', hchunk, hd.gone, hd.spares.2 fun hf => hf.find?.1 hnone⟩

/-- A file that lies under the name of its archive is deleted when the first part of an upload
fails. -/
theorem leftover_goes (s : Settings) (t : FileTree) (md : Metadata) (es : List Event) {a : Account}
    {n : Nat} {u : Upload} (live : ((start s t md).after es).InProgress a n u)
    (unsent : partsOf n ((start s t md).journal es) = []) (waits : u.status = .registered)
    (part : Option (List UInt8)) {f : SessionFault}
    (fails : FirstPartFails a u.archive ((start s t md).after es).plant.files part f)
    (left : ((start s t md).after es).plant.files.HasFile u.archive) :
    ∃ m', append a (part.getD []) ((start s t md).after es) = .error f m' ∧
      m'.plant.files.read u.archive = .error .notFound := by
  obtain ⟨hsited, hunsent⟩ := Unsent.after s t md es
  have hclosed := (hunsent a n u live unsent).closed
  exact ⟨_, append_of_fails live waits hclosed fails,
    (discards (Linked.after s t md es) hsited live).takes left⟩

/-- So is one that refused to be written: the upload never touched it. -/
theorem refused_leftover_is_deleted (s : Settings) (t : FileTree) (md : Metadata) (es : List Event)
    {a : Account} {n : Nat} {u : Upload} (live : ((start s t md).after es).InProgress a n u)
    (unsent : partsOf n ((start s t md).journal es) = []) (waits : u.status = .registered)
    (refuses : ((start s t md).after es).plant.files.Refuses u.archive) {bytes : List UInt8}
    (some : bytes ≠ []) :
    ∃ m', append a bytes ((start s t md).after es) = .error (.storage a .refused) m' ∧
      m'.plant.files.read u.archive = .error .notFound :=
  leftover_goes s t md es live unsent waits _
    (.unopened some (Writer.open_of_refuses refuses)) refuses.hasFile

namespace Sample

/-- A second upload is begun under the name of one that was deployed. -/
def beginsAgain : List Event := deploys ++ [begins 1]

/-- Then somebody has the archive that was deployed refuse to be written. -/
def beginsGuarded : List Event :=
  beginsAgain ++
    [.files (finalState (Files.guard job.archive) (service.after beginsAgain).plant.files)]

/-- The second upload is in progress and has no part, and the archive that was deployed is there. -/
structure SecondWaits (es : List Event) : Prop where
  live : (service.after es).InProgress account 1 (fresh 1)
  unsent : partsOf 1 (service.journal es) = []
  left : (service.after es).plant.files.read job.archive = .ok descriptor

/-- It can be told from a run whether that is so. -/
theorem SecondWaits.of_facts {es : List Event}
    (h : ((service.after es).find? account, (service.after es).uploads[1]?,
      partsOf 1 (service.journal es), ((service.after es).plant.files.read job.archive).toOption) =
        (some 1, some (fresh 1), [], some descriptor)) : SecondWaits es := by
  simp only [Prod.mk.injEq] at h
  obtain ⟨hfind, hknown, hunsent, hread⟩ := h
  exact ⟨⟨hfind, hknown⟩, hunsent, Failing.eq_ok_of_toOption hread⟩

end Sample

open Sample in
/-- What was deployed before is deleted with the discard of an upload of which no part came, be it
that a part is left out or that the archive cannot be opened for the first one. -/
theorem deployed_archive_is_discarded :
    (SecondWaits beginsAgain ∧
      ∃ m', Service.chunk ⟨"alice"⟩ (fresh 1).resource none (service.after beginsAgain) =
          .error (.badRequest "invalid chunk received") m' ∧
        m'.plant.files.read job.archive = .error .notFound) ∧
    SecondWaits beginsGuarded ∧
      ∃ m', Service.chunk ⟨"alice"⟩ (fresh 1).resource (some descriptor)
          (service.after beginsGuarded) = .error (.storage account .refused) m' ∧
        m'.plant.files.read job.archive = .error .notFound := by
  have hwaits : SecondWaits beginsAgain := .of_facts (by decide +kernel)
  have hwaits' : SecondWaits beginsGuarded := .of_facts (by decide +kernel)
  have named : Token.isBlank ⟨"alice"⟩ = false := by decide +kernel
  refine ⟨⟨hwaits, ?_⟩, hwaits', ?_⟩
  · rw [Service.chunk_of_named named]
    exact leftover_goes settings .empty .empty beginsAgain hwaits.live hwaits.unsent rfl none
      (.empty rfl) (hasFile_of_read hwaits.left)
  · -- The guard lies on the very file that the path resolves to.
    have hfacts : ((service.after beginsGuarded).plant.files.resolve job.archive).toOption.map
          (fun target =>
            (target.slash, (service.after beginsGuarded).plant.files.find? target.place)) =
        some (false, some (.file 0)) ∧
        (service.after beginsGuarded).plant.files.refuses 0 = true := by decide +kernel
    obtain ⟨⟨target, hresolve, hplace⟩, hrefuses⟩ := hfacts.imp_left Option.map_eq_some_iff.1
    obtain ⟨hslash, hfile⟩ := Prod.mk.inj hplace
    have refuses : (service.after beginsGuarded).plant.files.Refuses job.archive :=
      ⟨target, 0, Failing.eq_ok_of_toOption hresolve, hslash, hfile, hrefuses⟩
    rw [Service.chunk_of_named named]
    exact refused_leftover_is_deleted settings .empty .empty _ hwaits'.live hwaits'.unsent rfl
      refuses (by decide +kernel)

/-! ## What earlier uploads left -/

/-- As long as nobody else changes files, the file that lay under the name of its archive when an
upload began is there until the first part fails, and deleted then. -/
theorem leftover_is_deleted (s : Settings) (hs : s.validate = .ok ()) (t : FileTree)
    (md : Metadata) (es es' : List Event) (quiet : ∀ e ∈ es ++ es', e.KeepsFiles) {a : Account}
    {n : Nat} {u v : Upload} (begun : ((start s t md).after es).InProgress a n u)
    {bytes : List UInt8} (left : ((start s t md).after es).plant.files.read u.archive = .ok bytes)
    (live : ((start s t md).after (es ++ es')).InProgress a n v)
    (unsent : partsOf n ((start s t md).journal (es ++ es')) = [])
    (waits : v.status = .registered) {part : Option (List UInt8)} (empty : part.getD [] = []) :
    let m := (start s t md).after (es ++ es')
    m.plant.files.read u.archive = .ok bytes ∧
      ∃ m', append a (part.getD []) m = .error (.badRequest "invalid chunk received") m' ∧
        m'.plant.files.read u.archive = .error .notFound := by
  intro m
  have hn := Settings.isPlainName_of_validate hs
  obtain ⟨hq, hq'⟩ := List.forall_mem_append.1 quiet
  have hk := (Kept.start s t md).after hn hq
  rw [List.nil_append] at hk
  -- Nothing was sent since the session began, so the file is still the one that lay there then.
  have hu : Untouched s n u.archive (.ok bytes) ((start s t md).journal es)
      ((start s t md).after es) := by
    refine ⟨hk, (List.getElem?_eq_some_iff.1 begun.known).1, fun b w hc => ?_, fun b w hc _ => left⟩
    rw [Option.some.inj (hc.known.symm.trans begun.known)]
  have hu' := hu.after hn hq'
  rw [← journal_append, ← after_append] at hu'
  have hread := hu'.read a v live unsent
  have harchive := hu'.archive a v live
  have hgoes := leftover_goes s t md (es ++ es') live unsent waits part (.empty empty)
    (hasFile_of_read (harchive ▸ hread))
  exact ⟨hread, harchive ▸ hgoes⟩

end Deployment
