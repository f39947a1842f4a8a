import Deployment.Proofs.Session.Archive

/-! # Uploads in parts

An archive can be uploaded in parts of any size. Only what the parts are together tells how the
upload ends.

* **`send`** — all parts of an upload, and its end.
* **`send_yields`** — what that yields, in terms of all parts together. -/

namespace Deployment

open Stateful FileTree

namespace SessionManager

variable {m : SessionManager} {a : Account} {n : Nat} {u : Upload} {w : Writer}
  {part : List UInt8} {now : Timestamp}

/-- Append the parts of the account's upload one after the other, and ask for its deployment. -/
def send (a : Account) (parts : List (List UInt8)) (now : Timestamp) : Request DeployHandle := do
  parts.forM (append a)
  finalize a now

/-- After no parts an upload is ended. -/
@[simp] theorem send_nil (a : Account) (now : Timestamp) : send a [] now = finalize a now := rfl

/-- A part is sent, and then the rest. -/
@[simp] theorem send_cons (a : Account) (part : List UInt8) (rest : List (List UInt8))
    (now : Timestamp) :
    send a (part :: rest) now = append a part >>= fun _ => send a rest now := by
  simp only [send, List.forM, bind_assoc]

/-- A part is written where the upload may receive it. -/
theorem append_yields (hc : m.InProgress a n u) (hs : u.status.allows .uploading = true)
    (hp : part ≠ []) : yields (append a part) m =
      (yields (u.write part) m.plant.files).mapError (.storage a) >>= fun r =>
        .ok ((), withFiles r.2 (put n (u.receiving r.1) m)) := by
  have hbytes : part.isEmpty = false := List.isEmpty_eq_false_iff.2 hp
  have happ : append a part m = appendTo n a part m := by
    simp only [append, run_bind, handle_of_find hc.find]
  cases hw : u.write part m.plant.files with
  | ok w t =>
    rw [yields_of_ok hw, yields_of_ok (happ.trans (appendTo_of_written hc.known hs hbytes hw))]
    rfl
  | error f t =>
    rw [yields_of_error hw, yields_of_error (happ.trans (appendTo_of_fault hc.known hs hbytes hw))]
    rfl

/-- The upload ends where it may, once its archive is closed. -/
theorem finalize_yields (hc : m.InProgress a n u) (hs : u.status.allows .verifying = true) :
    yields (finalize a now) m =
      (yields u.close m.plant.files).mapError (.storage a) >>= fun r =>
        yields (requestDeploy n u now) (withFiles r.2 (put n u.waiting m)) := by
  have hfin : finalize a now m = finalizeAt n a now m := by
    simp only [finalize, run_bind, handle_of_find hc.find]
  cases hw : u.close m.plant.files with
  | ok v t =>
    rw [yields_of_ok hw]
    simp only [yields, hfin, finalizeAt_of_closed hc.known hs hw]
    rfl
  | error f t =>
    rw [yields_of_error hw, yields_of_error (hfin.trans (finalizeAt_of_fault hc.known hs hw))]
    rfl

/-- Of two changes of one upload the last one stays. -/
@[simp] theorem put_put (t t' : FileTree) (n : Nat) (u v : Upload) (m : SessionManager) :
    withFiles t' (put n v (withFiles t (put n u m))) = withFiles t' (put n v m) := by
  simp only [withFiles, put, List.set_set]

/-- Parts that are sent to an upload with a writer are stored. -/
theorem send_of_writer (hc : m.InProgress a n u) (hw : u.writer = some w)
    (hs : u.status = .uploading) {parts : List (List UInt8)} (hp : ∀ part ∈ parts, part ≠ []) :
    yields (send a parts now) m =
      (yields (w.store parts) m.plant.files).mapError (.storage a) >>= fun r =>
        yields (requestDeploy n u now) (withFiles r.2 (put n u.waiting m)) := by
  -- On the parts: each one moves on to the upload that received it, whose writer is the next.
  induction parts generalizing m u w with
  | nil =>
    have hclose : u.close = w.store [] := by
      simp only [Upload.close, hw]
      rfl
    rw [send_nil, finalize_yields hc (by rw [hs]; rfl), hclose]
  | cons part rest ih =>
    have hstore : w.store (part :: rest) = w.append part >>= fun w' => w'.store rest := by
      simp only [Writer.store, Writer.appendAll_cons, bind_assoc]
    have hwrite : u.write part = w.append part := funext (Upload.write_of_writer hw part)
    rw [send_cons, yields_bind, append_yields hc (by rw [hs]; rfl)
      (hp part (List.mem_cons_self ..)), hstore, yields_bind, hwrite]
    cases yields (w.append part) m.plant.files with
    | error f => rfl
    | ok r =>
      have hc' : (withFiles r.2 (put n (u.receiving r.1) m)).InProgress a n (u.receiving r.1) :=
        ⟨hc.find, Linked.known_put_self hc.known _⟩
      have hrest := ih hc' rfl rfl fun p hp' => hp p (List.mem_cons_of_mem part hp')
      simp only [put_put] at hrest
      exact hrest

/-- What all parts of a new upload yield in the end depends on what they are together. -/
theorem send_yields (hc : m.InProgress a n u) (hw : u.writer = none) (hs : u.status = .registered)
    {parts : List (List UInt8)} (hp : ∀ part ∈ parts, part ≠ []) (hb : parts.flatten ≠ []) :
    yields (send a parts now) m =
      (yields (Writer.open u.archive) m.plant.files).mapError (.storage a) >>= fun r =>
        (Writer.stored r.1.sink parts.flatten r.2).mapError (.storage a) >>= fun r' =>
          yields (requestDeploy n u now) (withFiles r'.2 (put n u.waiting m)) := by
  cases parts with
  | nil => exact absurd rfl hb
  | cons part rest =>
    have hpart := hp part (List.mem_cons_self ..)
    have hwrite : u.write part = Writer.open u.archive >>= fun w => w.append part := by
      simp only [Upload.write, hw]
    have hsend : yields (send a (part :: rest) now) m =
        (yields (Writer.open u.archive) m.plant.files).mapError (.storage a) >>= fun r =>
          yields (send a (part :: rest) now) (withFiles r.2 (put n (u.receiving r.1) m)) := by
      rw [send_cons, yields_bind, append_yields hc (by rw [hs]; rfl) hpart, hwrite, yields_bind]
      cases yields (Writer.open u.archive) m.plant.files with
      | error f => rfl
      | ok r =>
        -- The upload may as well have been opened before its first part.
        have hc' : (withFiles r.2 (put n (u.receiving r.1) m)).InProgress a n (u.receiving r.1) :=
          ⟨hc.find, Linked.known_put_self hc.known _⟩
        have happ := append_yields hc' rfl hpart
        simp only [put_put] at happ
        simp only [Failing.ok_bind, Failing.mapError_ok, yields_bind, happ]
        rfl
    rw [hsend]
    cases ho : Writer.open u.archive m.plant.files with
    | error f t => rw [yields_of_error ho]; rfl
    | ok w t =>
      have hc' : (withFiles t (put n (u.receiving w) m)).InProgress a n (u.receiving w) :=
        ⟨hc.find, Linked.known_put_self hc.known _⟩
      have hstore := Writer.store_yields (Writer.open_clean ho) (Writer.open_holds ho) hb
      have hall : yields (send a (part :: rest) now) _ = _ := send_of_writer hc' rfl rfl hp
      simp only [put_put] at hall
      rw [yields_of_ok ho]
      simp only [Failing.ok_bind, Failing.mapError_ok, ← hstore]
      exact hall

end SessionManager

end Deployment
