import Deployment.Proofs.Deploy.Ownership
import Deployment.Proofs.Session.Territory

/-! # What is deployed

A job reads its archive when a worker runs it, long after the last part came. It reads exactly the
parts that were accepted, whatever others have done in the meantime.

* **`partsOf`** — the parts that were accepted for an upload.
* **`Upload.Archived`** — how far the archive of an upload has come.
* **`Kept`** — what holds of archives after every run in which nobody else changes the files.
* **`Kept.read_of_outstanding`** — a job reads the parts of its upload. -/

namespace Deployment

open Stateful FileTree SessionManager

/-- The parts that were accepted for the upload of a number, in order. -/
def partsOf (n : Nat) (h : List Note) : List (List UInt8) :=
  h.filterMap fun note =>
    match note with
    | .accepted k part => if k = n then some part else none
    | _ => none

/-- The parts of an upload in two journals, one after the other. -/
@[simp] theorem partsOf_append (n : Nat) (h h' : List Note) :
    partsOf n (h ++ h') = partsOf n h ++ partsOf n h' := by
  simp [partsOf]

/-- How far the archive of an upload has come: no part of it, some, or all. -/
inductive Upload.Archived (h : List Note) (t : FileTree) (n : Nat) (u : Upload) : Prop where
  | untouched (status : u.status = .registered ∨ u.status = .verifying) (closed : u.writer = none)
      (parts : partsOf n h = [])
  | open (status : u.status = .uploading) (given : u.Given t (partsOf n h).flatten)
      (some : (partsOf n h).flatten ≠ [])
  | complete (status : u.status = .verifying) (closed : u.writer = none)
      (there : t.read u.archive = .ok (partsOf n h).flatten)

/-- What holds of archives after every run in which nobody else changes the files. -/
structure Kept (s : Settings) (h : List Note) (m : SessionManager) : Prop where
  linked : Linked h m
  sited : Sited s m
  counted : ∀ k part, Note.accepted k part ∈ h → k < m.uploads.length
  archives : ∀ a n u, m.InProgress a n u →
    m.plant.files.Reaches (s.accountDirectory a) ∧ u.Archived h m.plant.files n

namespace Upload.Archived

variable {h h' : List Note} {t t' : FileTree} {n : Nat} {u : Upload} {s : Settings}

/-- Something was given to every archive, if only nothing. -/
theorem given (ha : u.Archived h t n) : ∃ given, u.Given t given := by
  cases ha with
  | untouched _ closed => exact ⟨[], by rw [Given, closed]⟩
  | «open» _ given => exact ⟨_, given⟩
  | complete _ closed => exact ⟨[], by rw [Given, closed]⟩

/-- An archive has come as far as before where its place is the same. -/
theorem congr (ha : u.Archived h t n) (hp : u.Placed s)
    (ht : t.Reaches (s.accountDirectory u.account))
    (ht' : t'.Reaches (s.accountDirectory u.account)) (hs : Same t t' (Path.place u.archive))
    (hh : partsOf n h' = partsOf n h) : u.Archived h' t' n := by
  cases ha with
  | untouched status closed parts => exact .untouched status closed (hh.trans parts)
  | «open» status given some => exact .open status (hh ▸ given.congr hp ht ht' hs) (hh ▸ some)
  | complete status closed there =>
    refine .complete status closed ?_
    obtain ⟨name, hn, -, harch⟩ := hp.archive
    rw [hh, ← there, harch]
    refine read_join_congr hn ht ht' ?_
    rwa [← Path.place_join _ hn, ← harch]

end Upload.Archived

namespace Kept

variable {s : Settings} {h : List Note} {m m' : SessionManager} {e : Event} {notes : List Note}
  {a b : Account} {n : Nat} {u : Upload}

/-- Uploads that keep their parts have what they work with. -/
theorem working (hk : Kept s h m) : Working s m := by
  intro a n u hc
  obtain ⟨hreach, harch⟩ := hk.archives a n u hc
  exact ⟨hreach, harch.given⟩

/-- For an upload that is new no part was accepted. -/
theorem partsOf_new (hk : Kept s h m) : partsOf m.uploads.length h = [] := by
  rw [partsOf, List.filterMap_eq_nil_iff]
  intro note hnote
  split
  next k part =>
    have := hk.counted k part hnote
    rw [if_neg (Nat.ne_of_lt this)]
  next => rfl

/-- An event that does not concern an account brings no part of its upload. -/
theorem partsOf_spared (hk : Kept s h m) (he : Effect m e m' notes) (hb : ¬ e.Concerns b)
    (hc : m.InProgress b n u) : partsOf n (h ++ notes) = partsOf n h := by
  have hnone : partsOf n notes = [] := by
    cases he with
    | @accepted a bytes k v w t current =>
      have : k ≠ n := by
        rintro rfl
        have := hk.linked.own current
        rw [Option.some.inj (current.known.symm.trans hc.known), hk.linked.own hc] at this
        exact hb this.symm
      simp [partsOf, this]
    | _ => rfl
  rw [partsOf_append, hnone, List.append_nil]

/-- What belongs to an account that an event does not concern is as it was. -/
theorem same_of_spared (hk : Kept s h m) (hsp : Spares s b m m') (hc : m.InProgress b n u) :
    Same m.plant.files m'.plant.files (Path.place u.archive) ∧
      m'.plant.files.Reaches (s.accountDirectory b) := by
  have hp := hk.sited.placed n u hc.known
  have hown := hk.linked.own hc
  have hreach := (hk.archives b n u hc).1
  have hch := hsp.files (Settings.reaches_archiveDir hp.valid (hown ▸ hreach))
  exact ⟨hch.same _ fun hnot => hnot (hown ▸ hp.belongs), hch.reaches hreach⟩

/-- Uploads are never forgotten. -/
theorem length_le (hk : Kept s h m) (he : Effect m e m' notes) :
    m.uploads.length ≤ m'.uploads.length := by
  cases he with
  | registered => simp [withFiles, begin]
  | unprepared => simp [unlink, withFiles, begin]
  | accepted | discarded | submitted | failed | recorded => exact Nat.le_of_eq List.length_set.symm
  | recordedNowhere pending ended nobody => exact (hk.linked.not_nowhere pending nobody).elim
  | _ => exact Nat.le_refl _

/-- Parts are accepted for uploads that there are. -/
theorem counted_step (hk : Kept s h m) (he : Effect m e m' notes) (k : Nat) (part : List UInt8)
    (hn : Note.accepted k part ∈ h ++ notes) : k < m'.uploads.length := by
  refine Nat.lt_of_lt_of_le ?_ (hk.length_le he)
  rcases List.mem_append.1 hn with hn | hn
  · exact hk.counted k part hn
  · cases he with
    | @accepted a bytes n u w t current =>
      obtain ⟨rfl, -⟩ : k = n ∧ part = bytes := by simpa using hn
      exact (List.getElem?_eq_some_iff.1 current.known).1
    | submitted | recorded | recordedNowhere => simp at hn
    | _ => cases hn

/-- The archive of an account comes as far as an event of the account says. -/
theorem archives_of_concerned (hk : Kept s h m) (he : Effect m e m' notes) (hq : e.KeepsFiles)
    (hb : e.Concerns b) (hc : m'.InProgress b n u) :
    m'.plant.files.Reaches (s.accountDirectory b) ∧
      u.Archived (h ++ notes) m'.plant.files n := by
  -- The upload in progress after the event is as before, new, one part longer, or just closed.
  cases he.origin hk.linked hq hb hc with
  | kept before files quiet =>
    rw [files, quiet, List.append_nil]
    exact hk.archives b n u before
  | new number status closed made quiet =>
    rw [hk.sited.settings] at made
    refine ⟨made, .untouched (.inl status) closed ?_⟩
    rw [quiet, List.append_nil, number]
    exact hk.partsOf_new
  | part v w bytes before may some written now told =>
    obtain ⟨hreach, harch⟩ := hk.archives b n v before
    have hp := hk.sited.placed n v before.known
    have hown := hk.linked.own before
    have hparts : (partsOf n (h ++ notes)).flatten = (partsOf n h).flatten ++ bytes := by
      simp [partsOf, told]
    -- What was there before the part is what the writer will continue: nothing, or an open archive.
    have hg : v.Given m.plant.files (partsOf n h).flatten := by
      cases harch with
      | untouched _ closed parts => simp [Upload.Given, closed, parts]
      | «open» _ given => exact given
      | complete status =>
        rcases Status.allows_uploading.1 may with hs | hs <;> simp [hs] at status
    have hch := Upload.written_changes hg.housed written
    subst now
    refine ⟨hch.reaches hreach, .open rfl ?_ ?_⟩
    · rw [hparts]
      exact Upload.write_given hp (hown ▸ hreach) hg written
    · rw [hparts]
      simp [some]
  | complete v o k before may closed now told =>
    obtain ⟨hreach, harch⟩ := hk.archives b n v before
    have hp := hk.sited.placed n v before.known
    have hown := hk.linked.own before
    obtain ⟨given, hg⟩ := harch.given
    have hch := Upload.closed_changes hg.housed closed
    have hparts : partsOf n (h ++ notes) = partsOf n h := by simp [partsOf, told]
    subst now
    refine ⟨hch.reaches hreach, ?_⟩
    cases harch with
    -- Closing an upload without parts writes nothing; one with parts puts what is buffered on disk.
    | untouched status closed' parts => exact .untouched (.inr rfl) rfl (hparts.trans parts)
    | «open» status given some =>
      have hread := Upload.close_read hp (hown ▸ hreach) given some closed
      exact .complete rfl rfl (hparts.symm ▸ hread)
    | complete status =>
      rcases Status.allows_verifying.1 may with hs | hs <;> simp [hs] at status

/-- Every event keeps the archives, unless somebody else changes the files. -/
theorem step (hn : Path.isPlainName s.sessionFile = true) (hk : Kept s h m)
    (he : Effect m e m' notes) (hq : e.KeepsFiles) : Kept s (h ++ notes) m' := by
  refine ⟨hk.linked.step he, hk.sited.step hk.linked he, hk.counted_step he, fun b n u hc => ?_⟩
  -- An event that does not concern the account leaves its archive, and the parts noted for it,
  -- alone.
  by_cases hb : e.Concerns b
  · exact hk.archives_of_concerned he hq hb hc
  · have hsp := he.spares hk.linked hk.sited hn hk.working hb
    obtain ⟨v, hv⟩ := hk.linked.known (hsp.find.symm.trans hc.find)
    obtain rfl : v = u := Option.some.inj ((hsp.known n v hv).symm.trans hc.known)
    obtain ⟨hsame, hreach'⟩ := hk.same_of_spared hsp hv
    obtain ⟨hreach, harch⟩ := hk.archives b n v hv
    have hown := hk.linked.own hv
    exact ⟨hreach', harch.congr (hk.sited.placed n v hv.known) (hown ▸ hreach) (hown ▸ hreach')
      hsame (hk.partsOf_spared he hb hv)⟩

/-- At first no part was accepted, and there is nothing to keep. -/
theorem start (s : Settings) (t : FileTree) (md : Metadata) :
    Kept s [] (SessionManager.start s t md) where
  linked := .start s t md
  sited := .start s t md
  counted := nofun
  archives _ _ _ hc := nomatch hc.find

/-- Archives are kept over runs in which nobody else changes the files. -/
theorem after (hn : Path.isPlainName s.sessionFile = true) (hk : Kept s h m) {es : List Event}
    (hes : ∀ e ∈ es, e.KeepsFiles) : Kept s (h ++ m.journal es) (m.after es) :=
  after_induct (fun _ m e he hk => hk.step hn (effect e m) he) hes hk

end Kept

/-! ## What a job reads -/

namespace Kept

variable {s : Settings} {h : List Note} {m m' : SessionManager} {k : Ticket} {n : Nat}

/-- A job that did not end reads the parts that were accepted for its upload. -/
theorem read_of_outstanding (hk : Kept s h m) (ho : (some n, k) ∈ outstanding h)
    (hparts : partsOf n h ≠ []) : m.plant.files.read k.job.archive = .ok (partsOf n h).flatten := by
  obtain ⟨-, n', u, hn, hc, hs, hjob⟩ := hk.linked.of_outstanding ho
  obtain rfl := Option.some.inj hn
  rw [hjob]
  cases (hk.archives _ n u hc).2 with
  | untouched _ _ parts => exact absurd parts hparts
  | «open» status => rw [hs] at status; cases status
  | complete _ _ there => exact there

end Kept

end Deployment
