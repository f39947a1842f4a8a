import Deployment.Proofs.Session.Territory

/-! # The life of an upload

The table of allowed changes is asked before a part is accepted and before an upload is ended, but
neither when an upload fails at once nor when its deployment is noted. Statuses change by the table
all the same, and whatever is in progress is in good order.

* **`Upload.WellFormed`** — an upload in progress that is in good order.
* **`Tidy`** — the table of uploads in progress, and the writers of these.
* **`SessionManager.mark`** — the first half of the end of an upload, which has a status of its own.
* **`Event.stages`**, **`SessionManager.stages`** — all that follows one after the other in a run.
* **`KeepsToTable`** — statuses change by the table.
* **`appendWith`** — appending a part, given how an upload is thrown away.
* **`uploads_keep_to_table`** — what holds of every run. -/

namespace Deployment

open Stateful SessionManager

/-- Only from one status an upload ends. -/
theorem Status.verifying_of_allows {s s' : Status} (h : s.allows s' = true)
    (hend : s'.isTerminal = true) : s = .verifying := by
  revert h hend
  cases s <;> cases s' <;> decide

/-- Where a part may be accepted an upload may be thrown away. -/
theorem Status.discardable_of_allows {s : Status} (h : s.allows .uploading = true) :
    s.isDiscardable = true := by
  rcases Status.allows_uploading.1 h with rfl | rfl <;> rfl

/-! ## Uploads in progress -/

/-- An upload that the account has in progress, in good order. -/
structure Upload.WellFormed (s : Settings) (a : Account) (u : Upload) : Prop where
  own : u.account = a
  valid : a.isValid = true
  status : u.status = .registered ∨ u.status = .uploading ∨ u.status = .verifying
  error : u.error = none
  writer : u.writer.isSome = true ↔ u.status = .uploading
  archive : ∃ name, Path.isPlainName name = true ∧ s.isReserved name = false ∧
    u.archive = Path.join (s.accountDirectory a) name

/-- What an upload in progress has open, and what is said of its failure. -/
structure Upload.Sound (u : Upload) : Prop where
  error : u.error = none
  writer : u.writer.isSome = true ↔ u.status = .uploading

/-- Accounts are in the table of uploads in progress once, and all of these are sound. -/
structure Tidy (m : SessionManager) : Prop where
  keys : (m.live.map (·.1)).Nodup
  sound : ∀ a n u, m.InProgress a n u → u.Sound

namespace Tidy

variable {h : List Note} {m m' : SessionManager} {a b : Account} {n k : Nat} {u v w : Upload}

/-- At first no upload is in the table. -/
theorem start (s : Settings) (t : FileTree) (md : Metadata) : Tidy (.start s t md) where
  keys := .nil
  sound _ _ _ hc := nomatch hc.find

/-- What one account does leaves everything in order if what it has then is sound. -/
theorem of_account (ht : Tidy m) (hl : Linked h m) (hkeys : (m'.live.map (·.1)).Nodup)
    (hself : ∀ k w, m'.InProgress a k w → w.Sound)
    (hfind : ∀ b, a ≠ b → m'.find? b = m.find? b)
    (hkept : ∀ b k w, a ≠ b → m.InProgress b k w → m'.uploads[k]? = some w) : Tidy m' := by
  refine ⟨hkeys, fun b k w hw => ?_⟩
  by_cases hab : a = b
  · exact hself k w (hab ▸ hw)
  · obtain ⟨w', hw'⟩ := hl.known ((hfind b hab).symm.trans hw.find)
    obtain rfl : w' = w := Option.some.inj ((hkept b k w' hab hw').symm.trans hw.known)
    exact ht.sound b k w' hw'

/-- What became of an upload leaves those of other accounts alone. -/
theorem kept_of_put (hl : Linked h m) (hc : m.InProgress a n u)
    (hup : m'.uploads = (m.put n v).uploads) (b : Account) (k : Nat) (w : Upload) (hab : a ≠ b)
    (hw : m.InProgress b k w) : m'.uploads[k]? = some w := by
  rw [hup]
  exact Linked.known_put hc.known hw.known (by rw [hl.own hc, hl.own hw]; exact Ne.symm hab)

/-- An upload that becomes a sound one leaves everything in order. -/
theorem put (ht : Tidy m) (hl : Linked h m) (hc : m.InProgress a n u) (hv : v.Sound)
    (hlive : m'.live = m.live) (hup : m'.uploads = (m.put n v).uploads) : Tidy m' := by
  have hfind : ∀ b, m'.find? b = m.find? b := fun b => congrArg (Keyed.find? b) hlive
  refine ht.of_account hl (hlive ▸ ht.keys) (fun k w hw => ?_) (fun b _ => hfind b)
    (kept_of_put hl hc hup)
  obtain rfl : n = k := Option.some.inj (hc.find.symm.trans ((hfind a).symm.trans hw.find))
  have hself := hw.known
  rw [hup, Linked.known_put_self hc.known] at hself
  exact Option.some.inj hself ▸ hv

/-- An upload that is not in progress any more leaves everything in order. -/
theorem unlink (ht : Tidy m) (hl : Linked h m) (hc : m.InProgress a n u)
    (hlive : m'.live = Keyed.erase a m.live) (hup : m'.uploads = (m.put n v).uploads) :
    Tidy m' := by
  have hfind : ∀ b, m'.find? b = if a = b then none else m.find? b := fun b =>
    (congrArg (Keyed.find? b) hlive).trans (Keyed.find?_erase a b m.live)
  refine ht.of_account hl (hlive ▸ Keyed.nodup_erase ht.keys a) (fun k w hw => ?_)
    (fun b hab => (hfind b).trans (if_neg hab)) (kept_of_put hl hc hup)
  exact absurd (((hfind a).trans (if_pos rfl)).symm.trans hw.find) nofun

/-- Every event leaves everything in order. -/
theorem step {e : Event} {notes : List Note} (ht : Tidy m) (hl : Linked h m)
    (he : Effect m e m' notes) : Tidy m' := by
  cases he with
  | nothing => exact ht
  | worked => exact ⟨ht.keys, fun a n u hc => ht.sound a n u ⟨hc.find, hc.known⟩⟩
  | files => exact ⟨ht.keys, fun a n u hc => ht.sound a n u ⟨hc.find, hc.known⟩⟩
  | outage => exact ⟨ht.keys, fun a n u hc => ht.sound a n u ⟨hc.find, hc.known⟩⟩
  | @registered a _ _ _ _ u t valid plain free idle new made =>
    have hfind := Linked.find?_begin m a (u := u)
    refine ht.of_account hl (a := a) (Keyed.nodup_put ht.keys a _) (fun k w hw => ?_)
      (fun b hab => (hfind b).trans (if_neg hab)) (fun b k w _ hw => known_begin hw.known u)
    obtain rfl : m.uploads.length = k :=
      Option.some.inj (((hfind a).trans (if_pos rfl)).symm.trans hw.find)
    obtain rfl : u = w := Option.some.inj (List.getElem?_concat_length.symm.trans hw.known)
    rw [new]
    exact ⟨rfl, by simp [newUpload]⟩
  -- Opened and taken away again, the account is where it was, and its old key is erased once.
  | @unprepared a _ _ _ _ u t _ valid plain free idle new made =>
    have hfind := fun b => Linked.find?_unlink (withFiles t (m.begin a u)) a b
    refine ht.of_account hl (a := a) (Keyed.nodup_erase (Keyed.nodup_put ht.keys a _) a)
      (fun k w hw => absurd (((hfind a).trans (if_pos rfl)).symm.trans hw.find) nofun)
      (fun b hab => ?_) (fun b k w _ hw => known_begin hw.known u)
    exact (hfind b).trans ((if_neg hab).trans ((Linked.find?_begin m a b u).trans (if_neg hab)))
  | @accepted a bytes n u w t current may some written =>
    have hu := ht.sound a n u current
    exact ht.put hl current (v := u.receiving w) ⟨hu.error, by simp [Upload.receiving]⟩ rfl rfl
  | @discarded a bytes n u t current =>
    exact ht.unlink hl current (by rw [← hl.own current]; rfl) rfl
  | @submitted a now n u t p number current =>
    have hu := ht.sound a n u current
    exact ht.put hl current (v := u.waiting) ⟨hu.error, by simp [Upload.waiting]⟩ rfl rfl
  | failed current => exact ht.unlink hl current (by rw [← hl.own current]; rfl) rfl
  | recorded pending ended current => exact ht.unlink hl current rfl rfl
  | recordedNowhere pending ended nobody => exact (hl.not_nowhere pending nobody).elim

end Tidy

/-- What is known of uploads in progress holds together after every run. -/
structure InOrder (s : Settings) (h : List Note) (m : SessionManager) : Prop where
  linked : Linked h m
  sited : Sited s m
  tidy : Tidy m

namespace InOrder

variable {s : Settings} {h : List Note} {m : SessionManager}

/-- The manager starts in order. -/
theorem start (s : Settings) (t : FileTree) (md : Metadata) :
    InOrder s [] (SessionManager.start s t md) :=
  ⟨.start s t md, .start s t md, .start s t md⟩

/-- Whatever happens keeps the order. -/
theorem step (ho : InOrder s h m) (e : Event) : InOrder s (h ++ e.notes m) (e.step m) :=
  ⟨ho.linked.step (effect e m), ho.sited.step ho.linked (effect e m),
    ho.tidy.step ho.linked (effect e m)⟩

/-- After every run the uploads are in order. -/
theorem after (s : Settings) (t : FileTree) (md : Metadata) (es : List Event) :
    InOrder s ((SessionManager.start s t md).journal es)
      ((SessionManager.start s t md).after es) := by
  have ho := @after_induct_all (InOrder s) (fun h m e ho => ho.step e) es _ _ (.start s t md)
  rwa [List.nil_append] at ho

/-- An entry of the table is an upload in good order. -/
theorem wellFormed (ho : InOrder s h m) {e : Account × Nat} (he : e ∈ m.live) :
    ∃ u, m.uploads[e.2]? = some u ∧ u.WellFormed s e.1 := by
  -- No other entry hides this one, since accounts are in the table once.
  have hfind : m.find? e.1 = some e.2 := Keyed.find?_of_mem ho.tidy.keys he
  obtain ⟨u, hc⟩ := ho.linked.known hfind
  have hown := ho.linked.own hc
  obtain ⟨hvalid, harchive⟩ := ho.sited.placed e.2 u hc.known
  have hsound := ho.tidy.sound e.1 e.2 u hc
  rw [hown] at hvalid harchive
  refine ⟨u, hc.known, hown, hvalid, ?_, hsound.error, hsound.writer, harchive⟩
  cases ho.linked.accounts e.1 with
  | idle nobody => exact absurd (nobody.symm.trans hfind) nofun
  | «open» n u' hc' own status =>
    obtain ⟨rfl, rfl⟩ := hc.unique hc'
    exact status.elim .inl fun h => .inr (.inl h)
  | waiting n k u' hc' own status =>
    obtain ⟨rfl, rfl⟩ := hc.unique hc'
    exact .inr (.inr status)

end InOrder

/-! ## The stages of a run -/

namespace SessionManager

/-- The first half of the end of an upload: it waits for its deployment. -/
def mark (n : Nat) (a : Account) : Request Upload := do
  let u ← upload n a
  allow u.status .verifying
  modify (update n fun u => { u with status := .verifying, writer := none })
  return u

/-- The second half: its archive is closed, and its deployment is asked for. -/
def conclude (n : Nat) (a : Account) (u : Upload) (now : Timestamp) : Request DeployHandle := do
  match u.writer with
  | none => pure ()
  | some w => match ← attempt w.close with
    | .ok () => pure ()
    | .error f =>
      failNow n u f.message now
      throw (.storage a f)
  requestDeploy n u now

/-- The end of an upload is one half after the other. -/
@[simp] theorem mark_conclude (n : Nat) (a : Account) (now : Timestamp) :
    (mark n a >>= fun u => conclude n a u now) = finalizeAt n a now := by
  funext m
  simp only [mark, finalizeAt, run_bind]
  cases upload n a m with
  | error f m₁ => rfl
  | ok u m₁ =>
    cases hallow : allow u.status .verifying m₁ with
    | error f m₂ => simp only [hallow]
    | ok _ m₂ =>
      simp only [hallow, run_modify, run_pure]
      rfl

/-- What the two halves do: nothing if the end is refused, and else the upload waits and has then
been submitted or has failed. -/
theorem mark_cases (m : SessionManager) (n : Nat) (a : Account) (now : Timestamp) :
    (finalState (mark n a) m = m ∧ finalState (finalizeAt n a now) m = m) ∨
      ∃ u, m.uploads[n]? = some u ∧ u.status.allows .verifying = true ∧
        finalState (mark n a) m = m.put n u.waiting ∧
        ((finalState (finalizeAt n a now) m).uploads = (m.put n u.waiting).uploads ∨
          ∃ reason, (finalState (finalizeAt n a now) m).uploads =
            (m.put n (u.failedFor reason)).uploads) := by
  cases hu : m.uploads[n]? with
  | none =>
    left
    simp only [mark, finalizeAt, finalState, run_bind, upload_of_unknown hu, and_self]
  | some u =>
    -- The check comes before the first write, so a refused end writes no status at all.
    rcases finalizeAt_cases hu a now with ⟨hshut, f, -, hall⟩ |
      ⟨hmay, hall⟩
    · left
      rw [finalState_of_error hall]
      simp only [mark, finalState, run_bind, upload_of_known hu, allow, hshut, Bool.false_eq_true,
        if_false, run_throw, and_self]
    · have hmark : mark n a m = .ok u (m.put n u.waiting) := by
        simp only [mark, run_bind, upload_of_known hu, allow, hmay, if_true, run_pure, run_modify,
          update_eq_put hu]
        rfl
      refine .inr ⟨u, rfl, hmay, finalState_of_ok hmark, ?_⟩
      obtain ⟨t, p, number, -, -, hall⟩ | ⟨f, reason, t, p, -, -, -, -, -, hall⟩ := hall
      · exact .inl (by rw [finalState_of_ok hall]; rfl)
      · exact .inr ⟨reason, by rw [finalState_of_error hall]; rfl⟩

end SessionManager

/-- The stages of an event, each from a manager to the next. The end of an upload has two, and
every other event has one. -/
def Event.stages : Event → SessionManager → List (SessionManager × SessionManager)
  | .finalize a now, m => match m.find? a with
    | some n =>
      let marked := finalState (SessionManager.mark n a) m
      [(m, marked), (marked, Event.step (.finalize a now) m)]
    | none => [(m, Event.step (.finalize a now) m)]
  | e, m => [(m, e.step m)]

/-- All but the end of an upload changes its status in one stage. -/
theorem Event.stages_eq {e : Event} (h : ∀ a now, e ≠ .finalize a now) (m : SessionManager) :
    e.stages m = [(m, e.step m)] := by
  cases e with
  | finalize a now => exact absurd rfl (h a now)
  | _ => rfl

/-- The stages of a run. -/
def SessionManager.stages (m : SessionManager) : List Event → List (SessionManager × SessionManager)
  | [] => []
  | e :: es => e.stages m ++ (e.step m).stages es

/-- What became of an upload between two managers keeps to the table of allowed changes. -/
structure KeepsToTable (m m' : SessionManager) : Prop where
  /-- No upload is forgotten; its status is what it was, or one that may follow. -/
  kept : ∀ (n : Nat) (u : Upload), m.uploads[n]? = some u →
    ∃ v, m'.uploads[n]? = some v ∧ (v.status = u.status ∨ u.status.allows v.status = true)
  /-- A new upload is registered. -/
  new : ∀ (n : Nat) (v : Upload), m.uploads[n]? = none → m'.uploads[n]? = some v →
    v.status = .registered
  /-- An upload that has ended stays as it is. -/
  ended : ∀ (n : Nat) (u : Upload), m.uploads[n]? = some u → u.status.isTerminal = true →
    m'.uploads[n]? = some u

namespace KeepsToTable

variable {h : List Note} {m m' : SessionManager} {n : Nat} {u v : Upload}

/-- Where no upload is changed, the table is kept to. -/
theorem of_same (hup : m'.uploads = m.uploads) : KeepsToTable m m' where
  kept n u hu := ⟨u, hup ▸ hu, .inl rfl⟩
  new n v hn hv := by
    rw [hup, hn] at hv
    cases hv
  ended n u hu _ := hup ▸ hu

/-- An upload that begins is registered. -/
theorem of_begin (hup : m'.uploads = m.uploads ++ [u]) (hu : u.status = .registered) :
    KeepsToTable m m' where
  kept n w hw := ⟨w, hup ▸ known_begin hw u, .inl rfl⟩
  new n v hn hv := by
    rw [hup, List.getElem?_append_right (List.getElem?_eq_none_iff.1 hn)] at hv
    obtain rfl := List.mem_singleton.1 (List.mem_of_getElem? hv)
    exact hu
  ended n w hw _ := hup ▸ known_begin hw u

/-- An upload that is open keeps its status or takes one that the table allows. -/
theorem of_put (hu : m.uploads[n]? = some u) (hup : m'.uploads = (m.put n v).uploads)
    (hopen : u.status.isTerminal = false)
    (hs : v.status = u.status ∨ u.status.allows v.status = true) : KeepsToTable m m' := by
  have hother : ∀ {k}, n ≠ k → m'.uploads[k]? = m.uploads[k]? := by
    intro k hk
    rw [hup, SessionManager.put, List.getElem?_set_ne hk]
  constructor
  -- Only upload `n` changes, along an edge of the table.
  case kept =>
    intro k w hw
    by_cases hk : n = k
    · subst hk
      obtain rfl : u = w := Option.some.inj (hu.symm.trans hw)
      exact ⟨v, hup ▸ Linked.known_put_self hu v, hs⟩
    · exact ⟨w, (hother hk).trans hw, .inl rfl⟩
  case new =>
    intro k w hk hw
    have hne : n ≠ k := by
      rintro rfl
      cases hu.symm.trans hk
    cases hk.symm.trans ((hother hne).symm.trans hw)
  -- Upload `n` had not ended, so whichever has is another one.
  case ended =>
    intro k w hw hend
    have hne : n ≠ k := by
      rintro rfl
      obtain rfl : u = w := Option.some.inj (hu.symm.trans hw)
      rw [hopen] at hend
      cases hend
    exact (hother hne).trans hw

/-- An event other than the end of an upload keeps to the table. -/
theorem of_effect {e : Event} {notes : List Note} (hl : Linked h m) (he : Effect m e m' notes)
    (hne : ∀ a now, e ≠ .finalize a now) : KeepsToTable m m' := by
  cases he with
  | nothing => exact of_same rfl
  | worked => exact of_same rfl
  | files => exact of_same rfl
  | outage => exact of_same rfl
  | registered valid plain free idle new => exact of_begin rfl (by rw [new]; rfl)
  | unprepared valid plain free idle new => exact of_begin rfl (by rw [new]; rfl)
  | accepted current may =>
    exact of_put current.known rfl (Status.not_terminal_of_allows may) (.inr may)
  | discarded current may =>
    exact of_put current.known rfl (Status.not_terminal_of_allows may) (.inl rfl)
  | submitted => exact absurd rfl (hne _ _)
  | failed => exact absurd rfl (hne _ _)
  | @recorded t now n u r pending ended current =>
    -- The upload in which the end of a job is noted is the one that waits for it.
    obtain ⟨n', u', hc, hs, -⟩ := hl.of_pending pending
    obtain ⟨rfl, rfl⟩ := current.unique hc
    have hmay : u.status.allows (outcome r).1 = true := by
      rw [hs]
      cases r <;> rfl
    exact of_put current.known rfl (Status.not_terminal_of_allows hmay) (.inr hmay)
  | recordedNowhere pending ended nobody => exact (hl.not_nowhere pending nobody).elim

/-- Both halves of the end of an upload keep to the table. -/
theorem of_halves (m : SessionManager) (n : Nat) (a : Account) (now : Timestamp) :
    KeepsToTable m (finalState (mark n a) m) ∧
      KeepsToTable (finalState (mark n a) m) (finalState (finalizeAt n a now) m) := by
  obtain ⟨hmark, hall⟩ | ⟨u, hu, hmay, hmark, hall⟩ := mark_cases m n a now
  · rw [hmark, hall]
    exact ⟨of_same rfl, of_same rfl⟩
  · rw [hmark]
    refine ⟨of_put hu rfl (Status.not_terminal_of_allows hmay) (.inr hmay), ?_⟩
    rcases hall with hup | ⟨reason, hup⟩
    · exact of_same hup
    · -- The upload that waits is the one that fails.
      refine of_put (v := u.failedFor reason) (Linked.known_put_self hu u.waiting) ?_ rfl (.inr rfl)
      rw [hup, SessionManager.put, SessionManager.put, SessionManager.put, List.set_set]

/-- Both stages of the end of an upload keep to the table. -/
theorem of_end (m : SessionManager) (a : Account) (now : Timestamp) :
    ∀ x ∈ (Event.finalize a now).stages m, KeepsToTable x.1 x.2 := by
  intro x hx
  rw [Event.stages] at hx
  cases hf : m.find? a with
  | none =>
    have hstep : (Event.finalize a now).step m = m := by
      simp only [Event.step, finalState, finalize, run_bind, handle_of_idle hf]
    rw [hf, hstep] at hx
    obtain rfl := List.mem_singleton.1 hx
    exact of_same rfl
  | some n =>
    have hstep : (Event.finalize a now).step m = finalState (finalizeAt n a now) m := by
      simp only [Event.step, finalState, finalize, run_bind, handle_of_find hf]
    -- Marked as verifying, then whatever the rest of the call makes of it.
    obtain ⟨hfirst, hsecond⟩ := of_halves m n a now
    rw [hf, hstep] at hx
    rcases List.mem_cons.1 hx with rfl | hx
    · exact hfirst
    · obtain rfl := List.mem_singleton.1 hx
      exact hsecond

/-- Every stage of an event keeps to the table. -/
theorem of_stages (hl : Linked h m) (e : Event) : ∀ x ∈ e.stages m, KeepsToTable x.1 x.2 := by
  by_cases hend : ∃ a now, e = .finalize a now
  · obtain ⟨a, now, rfl⟩ := hend
    exact of_end m a now
  · have hne : ∀ a now, e ≠ .finalize a now := fun a now he => hend ⟨a, now, he⟩
    intro x hx
    obtain rfl := List.mem_singleton.1 (Event.stages_eq hne m ▸ hx)
    exact of_effect hl (effect e m) hne

/-- Only an upload that waits for its deployment becomes deployed or failed. -/
theorem ends (hk : KeepsToTable m m') (hu : m.uploads[n]? = some u) (hv : m'.uploads[n]? = some v)
    (hend : v.status.isTerminal = true) : v.status = u.status ∨ u.status = .verifying := by
  obtain ⟨v', hv', hs⟩ := hk.kept n u hu
  obtain rfl : v' = v := Option.some.inj (hv'.symm.trans hv)
  refine hs.imp id fun hmay => ?_
  exact Status.verifying_of_allows hmay hend

end KeepsToTable

/-- Every stage of a run keeps to the table. -/
theorem InOrder.keepsToTable {s : Settings} {h : List Note} {m : SessionManager}
    (ho : InOrder s h m) (es : List Event) : ∀ x ∈ m.stages es, KeepsToTable x.1 x.2 := by
  induction es generalizing h m with
  | nil => exact fun x hx => absurd hx List.not_mem_nil
  | cons e es ih =>
    intro x hx
    rcases List.mem_append.1 hx with hx | hx
    · exact KeepsToTable.of_stages ho.linked e x hx
    · exact ih (ho.step e) x hx

/-! ## Throwing an upload away -/

namespace SessionManager

/-- Append a part to the archive of an upload, given how an upload is thrown away. -/
def appendWith (throwAway : Nat → Upload → Request Unit) (n : Nat) (a : Account)
    (bytes : List UInt8) : Request Unit := do
  let u ← upload n a
  allow u.status .uploading
  if bytes.isEmpty then
    throwAway n u
    throw (.badRequest "invalid chunk received")
  match ← attempt (u.write bytes) with
  | .ok w => modify (update n fun u => { u with writer := some w, status := .uploading })
  | .error f =>
    throwAway n u
    throw (.storage a f)

/-- Throw an upload away, but stop at one that may not be. -/
def abandonChecked (stop : SessionFault) (n : Nat) (u : Upload) : Request Unit :=
  if u.status.isDiscardable then abandon n u else throw stop

/-- Parts are appended with that way to throw uploads away. -/
@[simp] theorem appendWith_abandon (n : Nat) (a : Account) (bytes : List UInt8) :
    appendWith abandon n a bytes = appendTo n a bytes := rfl

/-- Uploads are thrown away where they may be, and how others would be makes no difference. -/
theorem appendWith_congr {f g : Nat → Upload → Request Unit}
    (h : ∀ n u, u.status.isDiscardable = true → f n u = g n u) (n : Nat) (a : Account)
    (bytes : List UInt8) : appendWith f n a bytes = appendWith g n a bytes := by
  funext m
  simp only [appendWith, run_bind]
  cases upload n a m with
  | error fault m₁ => rfl
  | ok u m₁ =>
    cases hmay : u.status.allows .uploading with
    | false => simp only [allow, hmay, Bool.false_eq_true, if_false, run_throw]
    | true =>
      -- Both ways to throw the upload away come after this check, so they are the same here.
      simp only [allow, hmay, if_true, run_pure, h n u (Status.discardable_of_allows hmay)]

/-- A check before an upload is thrown away never fails. -/
@[simp] theorem appendWith_checked (stop : SessionFault) (n : Nat) (a : Account)
    (bytes : List UInt8) :
    appendWith (abandonChecked stop) n a bytes = appendTo n a bytes := by
  rw [← appendWith_abandon]
  exact appendWith_congr (fun n u h => if_pos h) n a bytes

end SessionManager

/-- Uploads keep to the table of allowed changes, whatever requests, workers and accidents there
were and in whatever order they came. -/
theorem uploads_keep_to_table (s : Settings) (t : FileTree) (md : Metadata) (es : List Event) :
    let m := (start s t md).after es
    -- Whatever is in progress is in progress for one account, and is in good order.
    (m.live.map (·.1)).Nodup ∧
    (∀ e ∈ m.live, ∃ u, m.uploads[e.2]? = some u ∧ u.WellFormed s e.1) ∧
    -- Uploads begin registered, and every change of a status is one that is allowed.
    (∀ x ∈ (start s t md).stages es, KeepsToTable x.1 x.2) ∧
    -- Only an upload that waits for its deployment becomes deployed or failed.
    (∀ x ∈ (start s t md).stages es, ∀ (n : Nat) (u v : Upload), x.1.uploads[n]? = some u →
      x.2.uploads[n]? = some v → v.status = .deployed ∨ v.status = .failed →
      v.status = u.status ∨ u.status = .verifying) ∧
    -- An upload is thrown away only where it may be.
    ∀ stop n a bytes, appendWith (abandonChecked stop) n a bytes = appendTo n a bytes := by
  intro m
  have ho := InOrder.after s t md es
  have hstages := (InOrder.start s t md).keepsToTable es
  refine ⟨ho.tidy.keys, fun e he => ho.wellFormed he, hstages,
    fun x hx n u v hu hv hend => (hstages x hx).ends hu hv ?_, appendWith_checked⟩
  rcases hend with h | h <;> rw [h] <;> rfl

end Deployment
