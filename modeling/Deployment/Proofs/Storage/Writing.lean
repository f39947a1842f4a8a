import Deployment.Proofs.Storage.Change
import Deployment.Storage.Writer

/-! # What a writer has written

A writer keeps the last bytes back, so that the file alone does not tell what was written. The
file and the buffer together do, as long as no fault was met.

* **`Writer.Reached`** — what of the bytes has reached the file at a place.
* **`Writer.Holds`** — the bytes that were given to a writer.
* **`Writer.Touches`** — nothing but the content of the writer's file has changed.
* **`Writer.append_holds`**, **`Writer.close_holds`** — more bytes, and the end.
* **`Writer.Clean`**, **`Writer.GoesOn`** — only a full device stops a writer.
* **`Writer.store_yields`** — of many parts only all of them together matter. -/

namespace Deployment

open Stateful FileTree

/-! ## Trees that differ in the content of a file -/

namespace FileTree

variable {t t' t'' : FileTree} {n : Nat}

/-- Of two contents that are given to a file the last one stays. -/
@[simp] theorem setContent_setContent (t : FileTree) (n : Nat) (bytes bytes' : List UInt8) :
    (t.setContent n bytes).setContent n bytes' = t.setContent n bytes' := by
  simp only [setContent, FileTree.mk.injEq, true_and, and_true]
  apply Array.ext_getElem?
  intro i
  simp only [Array.getElem?_setIfInBounds, Array.size_setIfInBounds]
  split <;> rfl

/-- A file that is given the content that it has stays as it is. -/
@[simp] theorem setContent_content (t : FileTree) (n : Nat) : t.setContent n (t.content n) = t := by
  have h : t.contents.setIfInBounds n (t.content n) = t.contents := by
    apply Array.ext_getElem?
    intro i
    rw [Array.getElem?_setIfInBounds, content]
    grind
  cases t
  simp only [setContent, FileTree.mk.injEq, true_and, and_true] at h ⊢
  exact h

/-- Nothing but the content of a file has changed. -/
def Rewrites (n : Nat) (t t' : FileTree) : Prop := t' = t.setContent n (t'.content n)

/-- A file that is as it was is written anew with what stands in it. -/
theorem Rewrites.refl (n : Nat) (t : FileTree) : Rewrites n t t := (setContent_content t n).symm

/-- What is set is written. -/
theorem rewrites_setContent (t : FileTree) (n : Nat) (bytes : List UInt8) :
    Rewrites n t (t.setContent n bytes) := by
  unfold Rewrites
  rw [content_setContent]
  split
  · rfl
  next hn =>
    -- a file that there is not cannot be written
    have hn : ¬ n < t.contents.size := fun h => hn ⟨rfl, h⟩
    have hb : ∀ bytes, t.setContent n bytes = t := by
      intro bytes
      cases t
      simp only [setContent, FileTree.mk.injEq, true_and, and_true]
      exact Array.setIfInBounds_eq_of_size_le (Nat.le_of_not_lt hn)
    rw [hb, hb]

/-- A file that is written twice is written. -/
theorem Rewrites.trans (h : Rewrites n t t') (h' : Rewrites n t' t'') : Rewrites n t t'' := by
  unfold Rewrites at *
  rw [h, setContent_setContent] at h'
  exact h'

/-- Only the place of the file sees its content. -/
theorem Rewrites.changesOnly (h : Rewrites n t t') {P : Place → Prop}
    (hP : ∀ p, t.find? p = some (.file n) → P p) : ChangesOnly P t t' := by
  rw [h]
  exact Files.setContent_changes _ hP

end FileTree

/-! ## Writers -/

namespace Writer

variable {t t' : FileTree} {p : Place} {w w' : Writer} {given bytes : List UInt8}

/-- Nothing but the content of the writer's file has changed; a device takes nothing. -/
def Touches (w : Writer) (t t' : FileTree) : Prop :=
  match w.sink with
  | .file n => Rewrites n t t'
  | .fullDevice => t' = t

/-- A writer that does nothing touches nothing. -/
theorem Touches.refl (w : Writer) (t : FileTree) : w.Touches t t := by
  unfold Touches
  split
  · exact .refl _ t
  · rfl

/-- A writer that touches only its file, and then again, does so together. -/
theorem Touches.trans {t'' : FileTree} (h : w.Touches t t') (h' : w.Touches t' t'') :
    w.Touches t t'' := by
  unfold Touches at *
  cases hs : w.sink with
  | file n =>
    rw [hs] at h h'
    exact Rewrites.trans h h'
  | fullDevice =>
    rw [hs] at h h'
    exact Eq.trans h' h

/-- What is touched is told by the file alone, whatever the writer holds back. -/
theorem Touches.congr (h : w'.sink = w.sink) (ht : w'.Touches t t') : w.Touches t t' := by
  unfold Touches at *
  rwa [h] at ht

/-- Where the writer's file stands something may have changed, and nowhere else. -/
theorem Touches.changesOnly (h : w.Touches t t') {P : Place → Prop}
    (hP : ∀ n, w.sink = .file n → ∀ p, t.find? p = some (.file n) → P p) :
    ChangesOnly P t t' := by
  unfold Touches at h
  cases hs : w.sink with
  | file n =>
    rw [hs] at h
    exact Rewrites.changesOnly h (hP n hs)
  | fullDevice =>
    rw [hs] at h
    rw [show t' = t from h]
    exact .refl _ _

/-- What of the bytes has reached the file at a place. Of a device that takes nothing it is only
known that without a fault there was nothing to take. -/
inductive Reached (w : Writer) (t : FileTree) (p : Place) (done : List UInt8) : Prop where
  | file (n : Nat) (sink : w.sink = .file n) (there : t.find? p = some (.file n))
      (fault : w.fault = none) (offset : w.offset = done.length) (content : t.content n = done)
  | device (sink : w.sink = .fullDevice) (nothing : w.fault = none → done = [])

/-- The bytes that were given to a writer: those in the buffer come last. -/
def Holds (w : Writer) (t : FileTree) (p : Place) (given : List UInt8) : Prop :=
  ∃ done, w.Reached t p done ∧ done ++ w.buffer = given

/-! ### Handing over -/

/-- Handing bytes over meets the last fault, or writes to the file, or finds the device full. -/
theorem handOver_cases (w : Writer) (bytes : List UInt8) (t : FileTree) :
    (∃ f, w.fault = some f ∧ w.handOver bytes t = .error f t) ∨
      w.fault = none ∧
        ((∃ n, w.sink = .file n ∧ w.handOver bytes t =
            .ok { w with offset := w.offset + bytes.length }
              (t.setContent n (Files.splice (t.content n) w.offset bytes))) ∨
          (w.sink = .fullDevice ∧ bytes = [] ∧ w.handOver bytes t = .ok w t) ∨
          (w.sink = .fullDevice ∧ bytes ≠ [] ∧
            w.handOver bytes t = .ok { w with fault := some .full } t)) := by
  cases hf : w.fault with
  | some f =>
    have hcheck : w.check t = .error f t := by simp only [check, hf, run_throw]
    exact .inl ⟨f, rfl, by simp only [handOver, bind, EStateM.bind, hcheck]⟩
  | none =>
    have hcheck : w.check t = .ok () t := by simp only [check, hf, run_pure]
    refine .inr ⟨rfl, ?_⟩
    -- without an earlier fault the sink decides
    cases hs : w.sink with
    | file n =>
      refine .inl ⟨n, rfl, ?_⟩
      simp only [handOver, bind, EStateM.bind, hcheck]
      simp only [hs, hf, Files.writeAt, run_modify]
    | fullDevice =>
      -- a full device refuses all but nothing, and tells so with the next bytes
      cases bytes with
      | nil =>
        refine .inr (.inl ⟨rfl, rfl, ?_⟩)
        simp only [handOver, bind, EStateM.bind, hcheck]
        cases w
        cases hs
        simp [Files.writeAt, run_pure]
      | cons b bytes =>
        refine .inr (.inr ⟨rfl, by simp, ?_⟩)
        simp only [handOver, bind, EStateM.bind, hcheck]
        simp [hs, Files.writeAt, run_throw]

/-- Handing over touches nothing but the writer's file. -/
theorem handOver_touches (w : Writer) (bytes : List UInt8) (t : FileTree) :
    w.Touches t (finalState (w.handOver bytes) t) := by
  obtain ⟨f, -, h⟩ | ⟨-, ⟨n, hs, h⟩ | ⟨-, -, h⟩ | ⟨-, -, h⟩⟩ := handOver_cases w bytes t
  · rw [finalState_of_error h]; exact .refl w t
  · rw [finalState_of_ok h, Touches, hs]
    exact rewrites_setContent t n _
  · rw [finalState_of_ok h]; exact .refl w t
  · rw [finalState_of_ok h]; exact .refl w t

/-- Bytes that are handed over change neither the file nor what is held back. -/
theorem handOver_ok (h : w.handOver bytes t = .ok w' t') :
    w'.sink = w.sink ∧ w'.buffer = w.buffer := by
  obtain ⟨f, -, h'⟩ | ⟨-, ⟨n, -, h'⟩ | ⟨-, -, h'⟩ | ⟨-, -, h'⟩⟩ := handOver_cases w bytes t <;>
    rw [h] at h' <;> cases h' <;> exact ⟨rfl, rfl⟩

/-- The bytes that are handed over reach the file behind those that were there. -/
theorem handOver_reached {done : List UInt8} (hr : w.Reached t p done)
    (h : w.handOver bytes t = .ok w' t') : w'.Reached t' p (done ++ bytes) := by
  obtain ⟨f, -, h'⟩ | ⟨hf, ⟨n, hs, h'⟩ | ⟨hs, rfl, h'⟩ | ⟨hs, -, h'⟩⟩ := handOver_cases w bytes t
  · rw [h] at h'
    cases h'
  · rw [h] at h'
    cases h'
    cases hr with
    | device hs' => rw [hs] at hs'; cases hs'
    | file m hs' there fault offset content =>
      rw [hs] at hs'
      cases hs'
      -- the bytes go to the end of what has reached the file
      refine .file n hs there fault (by simp [offset]) ?_
      rw [content_setContent, if_pos ⟨rfl, lt_size_of_find? there⟩, content, offset,
        Files.splice_length]
  · rw [h] at h'
    cases h'
    rwa [List.append_nil]
  · rw [h] at h'
    cases h'
    exact .device hs nofun

/-! ### The buffer -/

/-- A flush touches only the file. -/
theorem flush_touches (w : Writer) (t : FileTree) : w.Touches t (finalState w.flush t) := by
  unfold flush
  cases hb : w.buffer.isEmpty with
  | true => exact .refl w t
  | false =>
    simp only [Bool.false_eq_true, if_false]
    exact finalState_bind_induct (handOver_touches w w.buffer t) fun _ _ _ h => h

/-- After flushing all bytes that were given have reached the file. -/
theorem flush_holds (hh : w.Holds t p given) (h : w.flush t = .ok w' t') :
    w'.Reached t' p given ∧ w'.buffer = [] ∧ w'.sink = w.sink := by
  obtain ⟨done, hr, hd⟩ := hh
  unfold flush at h
  cases hb : w.buffer with
  | nil =>
    simp only [hb, List.isEmpty_nil, if_true, run_pure] at h
    cases h
    rw [hb, List.append_nil] at hd
    exact ⟨hd ▸ hr, hb, rfl⟩
  | cons b rest =>
    rw [hb, List.isEmpty_cons, if_neg (by simp)] at h
    obtain ⟨w₁, t₁, hw, h⟩ := run_bind_ok.1 h
    cases h
    obtain ⟨hs, -⟩ := handOver_ok hw
    -- what was held back comes behind what had reached the file
    have hr' := handOver_reached hr hw
    rw [← hb, hd] at hr'
    refine ⟨?_, rfl, hs⟩
    cases hr' with
    | file n sink there fault offset content => exact .file n sink there fault offset content
    | device sink nothing => exact .device sink nothing

/-- A flush keeps the file. -/
theorem flush_sink (h : w.flush t = .ok w' t') : w'.sink = w.sink := by
  unfold flush at h
  split at h
  · cases h; rfl
  · obtain ⟨w₁, t₁, hw, h⟩ := run_bind_ok.1 h
    cases h
    exact (handOver_ok hw).1

/-- Bytes that are taken touch only the file. -/
theorem take_touches (w : Writer) (bytes : List UInt8) (t : FileTree) :
    w.Touches t (finalState (w.take bytes) t) := by
  induction hl : bytes.length using Nat.strongRecOn generalizing w bytes t with
  | ind len ih =>
    rw [take]
    split
    · exact .refl w t
    next hc =>
      have hfirst := handOver_touches w (bytes.take maxPiece) t
      refine finalState_bind_induct hfirst fun w₁ t₁ hw h => ?_
      refine h.trans (Touches.congr (handOver_ok hw).1 (ih _ ?_ w₁ _ t₁ rfl))
      simp only [List.length_drop, capacity, maxPiece] at *
      omega

/-- Bytes that are taken follow those that were given before. Many bytes pass by the buffer, which
is empty then. -/
theorem take_holds (hh : w.Holds t p given) (hb : bytes.length < capacity ∨ w.buffer = [])
    (h : w.take bytes t = .ok w' t') : w'.Holds t' p (given ++ bytes) := by
  induction hl : bytes.length using Nat.strongRecOn generalizing w bytes t given with
  | ind len ih =>
    rw [take] at h
    split at h
    next hc =>
      cases h
      obtain ⟨done, hr, hd⟩ := hh
      refine ⟨done, ?_, by rw [← hd, List.append_assoc]⟩
      cases hr with
      | file n sink there fault offset content => exact .file n sink there fault offset content
      | device sink nothing => exact .device sink nothing
    next hc =>
      -- more than the buffer holds is taken only when nothing is held back
      have hempty : w.buffer = [] := hb.resolve_left hc
      obtain ⟨w₁, t₁, hw, h⟩ := run_bind_ok.1 h
      obtain ⟨done, hr, hd⟩ := hh
      have hb₁ : w₁.buffer = [] := (handOver_ok hw).2.trans hempty
      have hh₁ : w₁.Holds t₁ p (given ++ bytes.take maxPiece) := by
        refine ⟨_, handOver_reached hr hw, ?_⟩
        rw [hb₁, ← hd, hempty, List.append_nil, List.append_nil]
      -- the rest is shorter by one piece
      have := ih (bytes.drop maxPiece).length ?_ hh₁ (.inr hb₁) h rfl
      · rwa [List.append_assoc, List.take_append_drop] at this
      · simp only [List.length_drop, capacity, maxPiece] at *
        omega

/-! ### The life of a writer -/

/-- Appending flushes the buffer if the bytes have no room, and takes them. -/
theorem append_eq (w : Writer) (bytes : List UInt8) :
    w.append bytes =
      if capacity < w.buffer.length + bytes.length then w.flush >>= fun w₁ => w₁.take bytes
      else w.take bytes := by
  unfold append
  split <;> rfl

/-- A part that is appended touches only the file. -/
theorem append_touches (w : Writer) (bytes : List UInt8) (t : FileTree) :
    w.Touches t (finalState (w.append bytes) t) := by
  rw [append_eq]
  split
  · refine finalState_bind_induct (flush_touches w t) fun w₁ t₁ hw h => ?_
    exact h.trans ((take_touches w₁ bytes t₁).congr (flush_sink hw))
  · exact take_touches w bytes t

/-- Bytes that are appended follow those that were given before. -/
theorem append_holds (hh : w.Holds t p given) (h : w.append bytes t = .ok w' t') :
    w'.Holds t' p (given ++ bytes) := by
  rw [append_eq] at h
  split at h
  · obtain ⟨w₁, t₁, hw, h⟩ := run_bind_ok.1 h
    obtain ⟨hr, hb, -⟩ := flush_holds hh hw
    exact take_holds ⟨given, hr, by rw [hb, List.append_nil]⟩ (.inr hb) h
  next hroom =>
    refine take_holds hh ?_ h
    by_cases hb : w.buffer = []
    · exact .inr hb
    · have := List.length_pos_iff.2 hb
      exact .inl (by omega)

/-- Closing touches only the file. -/
theorem close_touches (w : Writer) (t : FileTree) : w.Touches t (finalState w.close t) := by
  refine finalState_bind_induct (flush_touches w t) fun w₁ t₁ _ h => ?_
  simp only [check]
  split <;> exact h

/-- A writer that was closed without a fault has written to its file what was given to it, unless
there was nothing. -/
theorem close_holds (hh : w.Holds t p given) (h : w.close t = .ok () t') :
    (∃ n, w.sink = .file n ∧ t'.find? p = some (.file n) ∧ t'.content n = given) ∨ given = [] := by
  obtain ⟨w₁, t₁, hw, h⟩ := run_bind_ok.1 h
  obtain ⟨hr, -, hs⟩ := flush_holds hh hw
  cases hf : w₁.fault with
  | some f => simp only [check, hf, run_throw] at h; cases h
  | none =>
    simp only [check, hf, run_pure] at h
    cases h
    cases hr with
    | file n sink there fault offset content => exact .inl ⟨n, hs ▸ sink, there, content⟩
    | device sink nothing => exact .inr (nothing hf)

/-- Opening a writer touches the place of its path. -/
theorem open_changes (path : String) (t : FileTree) :
    ChangesOnly (· = Path.place path) t (finalState (Writer.open path) t) :=
  finalState_bind_induct (Files.create_changes path t) fun _ _ _ h => h

/-- A writer is opened for the file that is created at its path. -/
theorem open_eq_ok {path : String} (h : Writer.open path t = .ok w t') :
    ∃ sink, Files.create path t = .ok sink t' ∧ w = { sink := sink } := by
  obtain ⟨sink, t₁, hc, h⟩ := run_bind_ok.1 h
  cases h
  exact ⟨sink, hc, rfl⟩

/-- No writer is opened where no file can be created. -/
theorem open_eq_error {path : String} {f : StorageFault} (h : Writer.open path t = .error f t') :
    Files.create path t = .error f t' := run_bind_pure_error h

/-- A writer can be opened only where its path leads somewhere. -/
theorem open_resolves {path : String} (h : Writer.open path t = .ok w t') :
    ∃ target, t.resolve path = .ok target := by
  obtain ⟨sink, hc, -⟩ := open_eq_ok h
  obtain ⟨target, hr, -⟩ := Files.create_ok hc
  exact ⟨target, hr⟩

/-- A writer that was just opened was given nothing. -/
theorem open_holds {path : String} (h : Writer.open path t = .ok w t') :
    w.Holds t' (Path.place path) [] := by
  obtain ⟨sink, hc, rfl⟩ := open_eq_ok h
  refine ⟨[], ?_, rfl⟩
  cases sink with
  | file n =>
    obtain ⟨there, content⟩ := Files.create_file hc
    exact .file n rfl there rfl rfl content
  | fullDevice => exact .device rfl fun _ => rfl

/-! ### Faults -/

/-- A writer that was met by no fault, except that its device may be full. -/
def Clean (w : Writer) : Prop :=
  match w.sink with
  | .file _ => w.fault = none
  | .fullDevice => w.fault = none ∨ w.fault = some .full

/-- A change of files leaves a clean writer to the same sink, or finds the device full. -/
def GoesOn (w : Writer) (r : EStateM.Result StorageFault FileTree Writer) : Prop :=
  (∃ w' t', r = .ok w' t' ∧ w'.Clean ∧ w'.sink = w.sink) ∨
    (w.sink = .fullDevice ∧ ∃ t', r = .error .full t')

/-- A clean writer is as good as another to the same sink with the same fault. -/
theorem Clean.congr (hc : w.Clean) (hs : w'.sink = w.sink) (hf : w'.fault = w.fault) :
    w'.Clean := by
  unfold Clean at *
  rwa [hs, hf]

/-- A writer goes on with one thing after the other. -/
theorem GoesOn.trans {x : Files Writer} {f : Writer → Files Writer} (h : w.GoesOn (x t))
    (hf : ∀ (w' : Writer) t', w'.Clean → w'.sink = w.sink → w'.GoesOn (f w' t')) :
    w.GoesOn ((x >>= f) t) := by
  rw [run_bind]
  obtain ⟨w', t', hx, hc, hs⟩ | ⟨hs, t', hx⟩ := h
  · rw [hx]
    obtain ⟨w'', t'', hx', hc', hs'⟩ | ⟨hs', t'', hx'⟩ := hf w' t' hc hs
    · exact .inl ⟨w'', t'', hx', hc', hs'.trans hs⟩
    · exact .inr ⟨hs ▸ hs', t'', hx'⟩
  · rw [hx]
    exact .inr ⟨hs, t', rfl⟩

/-- A clean writer goes on when it hands bytes over. -/
theorem handOver_goesOn (hc : w.Clean) (bytes : List UInt8) (t : FileTree) :
    w.GoesOn (w.handOver bytes t) := by
  obtain ⟨f, hf, h⟩ | ⟨hf, ⟨n, hs, h⟩ | ⟨hs, -, h⟩ | ⟨hs, -, h⟩⟩ := handOver_cases w bytes t
  · rw [h]
    cases hs : w.sink with
    | file n => simp [Clean, hs, hf] at hc
    | fullDevice =>
      obtain rfl : f = .full := by simpa [Clean, hs, hf] using hc
      exact .inr ⟨hs, t, rfl⟩
  · exact .inl ⟨_, _, h, hc.congr rfl rfl, rfl⟩
  · exact .inl ⟨_, _, h, hc, rfl⟩
  · refine .inl ⟨_, _, h, ?_, rfl⟩
    simp [Clean, hs]

/-- A clean writer goes on when it flushes. -/
theorem flush_goesOn (hc : w.Clean) (t : FileTree) : w.GoesOn (w.flush t) := by
  unfold flush
  split
  · exact .inl ⟨w, t, rfl, hc, rfl⟩
  · exact (handOver_goesOn hc _ t).trans fun w' t' hc' _ =>
      .inl ⟨_, t', rfl, hc'.congr rfl rfl, rfl⟩

/-- A clean writer goes on when it takes bytes. -/
theorem take_goesOn (hc : w.Clean) (bytes : List UInt8) (t : FileTree) :
    w.GoesOn (w.take bytes t) := by
  induction hl : bytes.length using Nat.strongRecOn generalizing w bytes t with
  | ind len ih =>
    rw [take]
    split
    · exact .inl ⟨_, t, rfl, hc.congr rfl rfl, rfl⟩
    next hcap =>
      refine (handOver_goesOn hc _ t).trans fun w' t' hc' _ => ih _ ?_ hc' _ t' rfl
      simp only [List.length_drop, capacity, maxPiece] at *
      omega

/-- A clean writer goes on when a part is appended. -/
theorem append_goesOn (hc : w.Clean) (bytes : List UInt8) (t : FileTree) :
    w.GoesOn (w.append bytes t) := by
  have htake : ∀ (w' : Writer) t', w'.Clean → w'.sink = w.sink → w'.GoesOn (w'.take bytes t') :=
    fun w' t' hc' _ => take_goesOn hc' bytes t'
  unfold append
  by_cases hroom : capacity < w.buffer.length + bytes.length
  · simp only [hroom, if_true]
    exact (flush_goesOn hc t).trans htake
  · simp only [hroom, if_false]
    exact htake w t hc rfl

/-- Closing a clean writer writes to its file, or finds the device full. -/
theorem close_of_clean (hc : w.Clean) (t : FileTree) :
    (∃ t', w.close t = .ok () t') ∨ (w.sink = .fullDevice ∧ ∃ t', w.close t = .error .full t') := by
  rw [close, run_bind]
  obtain ⟨w', t', hx, hc', hs⟩ | ⟨hs, t', hx⟩ := flush_goesOn hc t
  · rw [hx]
    cases hf : w'.fault with
    | none => exact .inl ⟨t', by simp only [check, hf, run_pure]⟩
    | some f =>
      -- only a full device can have a fault to tell
      cases hs' : w'.sink with
      | file n => simp [Clean, hs', hf] at hc'
      | fullDevice =>
        obtain rfl : f = .full := by simpa [Clean, hs', hf] using hc'
        exact .inr ⟨hs ▸ hs', t', by simp only [check, hf, run_throw]⟩
  · rw [hx]
    exact .inr ⟨hs, t', rfl⟩

/-! ### Many parts -/

/-- Append parts one after the other. -/
def appendAll (w : Writer) (parts : List (List UInt8)) : Files Writer := parts.foldlM append w

/-- A part is appended, and then the rest. -/
@[simp] theorem appendAll_cons (w : Writer) (part : List UInt8) (rest : List (List UInt8)) :
    w.appendAll (part :: rest) = w.append part >>= fun w' => w'.appendAll rest := by
  rw [appendAll, List.foldlM_cons]
  rfl

/-- A clean writer goes on over all parts. -/
theorem appendAll_goesOn (hc : w.Clean) (parts : List (List UInt8)) (t : FileTree) :
    w.GoesOn (w.appendAll parts t) := by
  induction parts generalizing w t with
  | nil => exact .inl ⟨w, t, rfl, hc, rfl⟩
  | cons part rest ih =>
    rw [appendAll_cons]
    exact (append_goesOn hc part t).trans fun w' t' hc' _ => ih hc' t'

/-- Parts that are appended touch the file and follow what was given before. -/
theorem appendAll_holds {parts : List (List UInt8)} (hc : w.Clean) (hh : w.Holds t p given)
    (h : w.appendAll parts t = .ok w' t') :
    w.Touches t t' ∧ w'.Holds t' p (given ++ parts.flatten) := by
  induction parts generalizing w t given with
  | nil =>
    cases h
    exact ⟨.refl _ _, by simpa using hh⟩
  | cons part rest ih =>
    rw [appendAll_cons, run_bind] at h
    obtain ⟨w₁, t₁, hw, hc', hs⟩ | ⟨-, t₁, hw⟩ := append_goesOn hc part t
    · rw [hw] at h
      have ht := append_touches w part t
      rw [finalState_of_ok hw] at ht
      -- the parts so far are given, and the rest follows
      obtain ⟨ht', hh'⟩ := ih hc' (append_holds hh hw) h
      refine ⟨ht.trans (ht'.congr hs), ?_⟩
      rwa [List.append_assoc] at hh'
    · rw [hw] at h
      cases h

/-- Append parts one after the other, and close the file. -/
def store (w : Writer) (parts : List (List UInt8)) : Files Unit := do
  let w ← w.appendAll parts
  w.close

/-- What storing bytes yields: a file has them as its content, and a device is full. -/
def stored (sink : Sink) (bytes : List UInt8) (t : FileTree) :
    Except StorageFault (Unit × FileTree) :=
  match sink with
  | .file n => .ok ((), t.setContent n bytes)
  | .fullDevice => .error .full

/-- The parts that are stored matter only together. -/
theorem store_yields (hc : w.Clean) (hh : w.Holds t p []) {parts : List (List UInt8)}
    (hb : parts.flatten ≠ []) : yields (w.store parts) t = stored w.sink parts.flatten t := by
  obtain ⟨w', t', hx, hc', hs⟩ | ⟨hs, t', hx⟩ := appendAll_goesOn hc parts t
  · obtain ⟨ht, hh'⟩ := appendAll_holds hc hh hx
    have hstore : w.store parts t = w'.close t' := by rw [store, run_bind, hx]
    have htc := (close_touches w' t').congr hs
    obtain ⟨t'', hx'⟩ | ⟨hs', t'', hx'⟩ := close_of_clean hc' t'
    · rw [yields_of_ok (hstore.trans hx')]
      rw [finalState_of_ok hx'] at htc
      obtain ⟨n, hs', -, hcontent⟩ := (close_holds hh' hx').resolve_right hb
      -- the file was written and nothing else, with all that was given
      have hch := ht.trans htc
      simp only [Touches, ← hs, hs', Rewrites, hcontent, List.nil_append] at hch
      rw [← hs, hs', hch]
      rfl
    · rw [yields_of_error (hstore.trans hx'), ← hs, hs']
      rfl
  · have hstore : w.store parts t = .error .full t' := by rw [store, run_bind, hx]
    rw [yields_of_error hstore, hs]
    rfl

/-- A writer that was opened is clean. -/
theorem open_clean {path : String} (h : Writer.open path t = .ok w t') : w.Clean := by
  obtain ⟨sink, -, rfl⟩ := open_eq_ok h
  unfold Clean
  split
  · rfl
  · exact .inl rfl

/-- What a writer was given is as it was where its place is the same. -/
theorem Holds.congr (hh : w.Holds t p given) (hs : Same t t' p) : w.Holds t' p given := by
  obtain ⟨done, hr, hd⟩ := hh
  refine ⟨done, ?_, hd⟩
  cases hr with
  | file n sink there fault offset content =>
    exact .file n sink (hs.find.trans there) fault offset ((hs.content n there).trans content)
  | device sink nothing => exact .device sink nothing

end Writer

end Deployment
