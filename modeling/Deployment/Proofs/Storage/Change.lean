import Deployment.Data.Stateful
import Deployment.Proofs.Storage.Place

/-! # What changes of files leave alone

Every change touches few places. What stands at the others is the same afterwards, and no change
takes a directory away.

* **`FileTree.Same`** — the same stands at a place in both trees.
* **`FileTree.ChangesOnly`** — nothing but some places has changed.
* **`Files.create_changes`** and the others — what each change touches. -/

namespace Deployment

/-! ## Trees that differ in few places -/

namespace FileTree

variable {t t' t'' : FileTree} {P Q : Place → Prop}

/-- The same stands at a place in both trees. -/
structure Same (t t' : FileTree) (p : Place) : Prop where
  find : t'.find? p = t.find? p
  content : ∀ n, t.find? p = some (.file n) → t'.content n = t.content n

/-- A place is the same where nothing is done. -/
theorem Same.refl (t : FileTree) (p : Place) : Same t t p := ⟨rfl, fun _ _ => rfl⟩

/-- A place that stays the same, and then again, is the same. -/
theorem Same.trans {p : Place} (h : Same t t' p) (h' : Same t' t'' p) : Same t t'' p where
  find := h'.find.trans h.find
  content := fun n hn => (h'.content n (h.find.trans hn)).trans (h.content n hn)

/-- Nothing but some places has changed, and no directory is gone. -/
structure ChangesOnly (P : Place → Prop) (t t' : FileTree) : Prop where
  same : ∀ p, ¬ P p → Same t t' p
  directory : ∀ p, t.find? p = some .directory → t'.find? p = some .directory

namespace ChangesOnly

/-- Where nothing is done, nothing is changed anywhere. -/
theorem refl (P : Place → Prop) (t : FileTree) : ChangesOnly P t t :=
  ⟨fun p _ => Same.refl t p, fun _ h => h⟩

/-- Two changes that keep to some places do so together. -/
theorem trans (h : ChangesOnly P t t') (h' : ChangesOnly P t' t'') : ChangesOnly P t t'' :=
  ⟨fun p hp => (h.same p hp).trans (h'.same p hp), fun p hp => h'.directory p (h.directory p hp)⟩

/-- A change that keeps to some places keeps to more of them. -/
theorem mono (hPQ : ∀ p, P p → Q p) (h : ChangesOnly P t t') : ChangesOnly Q t t' :=
  ⟨fun p hp => h.same p fun hP => hp (hPQ p hP), h.directory⟩

/-- A directory put where nothing was changes its place. -/
theorem put {p : Place} (hp : t.find? p = none) :
    ChangesOnly (· = p) t (t.put p .directory (by simp)) where
  same q hq := ⟨by rw [find?_put hp, if_neg (Ne.symm hq)], fun _ _ => rfl⟩
  directory q hq := by
    rw [find?_put hp, if_neg]
    · exact hq
    · rintro rfl
      rw [hp] at hq
      cases hq

/-- Where a name led before, it leads after. -/
theorem enter (h : ChangesOnly P t t') {p q : Place} {name : String}
    (he : t.enter p name = .ok q) : t'.enter p name = .ok q := by
  unfold FileTree.enter at he ⊢
  split
  next h1 => simpa [h1] using he
  next h1 =>
    split
    next h2 => simpa [h1, h2] using he
    next h2 =>
      rw [if_neg h1, if_neg h2] at he
      split
      next h3 => rw [if_pos h3] at he; cases he
      -- only a name that is none of `.` and `..` is looked up, and its directory is still there
      next h3 =>
        rw [if_neg h3] at he
        split at he
        next hd => rw [h.directory _ hd]; exact he
        next => cases he
        next => cases he

/-- A way that leads somewhere leads there after the change, too. -/
theorem enterAll (h : ChangesOnly P t t') {names : List String} {p q : Place}
    (he : names.foldlM t.enter p = .ok q) : names.foldlM t'.enter p = .ok q := by
  induction names generalizing p with
  | nil => exact he
  | cons name rest ih =>
    rw [List.foldlM_cons] at he ⊢
    cases hn : t.enter p name with
    | error f => rw [hn] at he; cases he
    | ok r =>
      rw [hn] at he
      rw [h.enter hn]
      exact ih he

/-- A directory that could be entered can be entered still. -/
theorem reaches (h : ChangesOnly P t t') {dir : String} (hd : t.Reaches dir) : t'.Reaches dir :=
  h.enterAll hd

end ChangesOnly

/-! ## Reading -/

/-- If a directory is where a path leads, then it can be entered, also after a change. -/
theorem reaches_of_resolve {path : String} {target : Target} (h : t.resolve path = .ok target)
    (hc : ChangesOnly P t t') (hd : t'.find? target.place = some .directory) :
    t'.Reaches path := by
  have hp := resolve_place h
  unfold resolve at h
  simp only [bind, Except.bind, pure, Except.pure, throw, throwThe, MonadExceptOf.throw] at h
  -- the cases are those of `resolve`; only the last name is new to the way
  split at h
  · cases h
  · split at h
    · cases h
    · split at h
      · cases h
      · split at h
        next hnil =>
          simp [Reaches, Path.place, Path.origin, List.getLast?_eq_none_iff.1 hnil, pure,
            Except.pure]
        next last hlast =>
          obtain ⟨front, hf⟩ := List.getLast?_eq_some_iff.1 hlast
          rw [hf, List.dropLast_concat] at h
          split at h
          · cases h
          next p hfront =>
            -- one step further than the directories in front of the last name
            have hall : ∀ q, t'.enter p last = .ok q → t'.Reaches path := by
              intro q hq
              apply reaches_of_enterAll (p := q)
              rw [hf, List.foldlM_append]
              simp only [Path.origin, hc.enterAll hfront, bind, Except.bind, List.foldlM_cons, hq,
                List.foldlM_nil, pure, Except.pure]
            split at h
            next h1 => exact hall p (by simp [enter, h1])
            next h1 =>
              split at h
              next h2 => exact hall (above p) (by simp [enter, h2])
              next h2 =>
                split at h
                · cases h
                next h3 =>
                  cases h
                  exact hall (p ++ [last]) (by simp [enter, h1, h2, h3, hd])

/-- Where a directory is, it can be entered. -/
theorem reaches_of_isDirectory {path : String} (h : t.isDirectory path = true) :
    t.Reaches path := by
  unfold isDirectory look at h
  cases hr : t.resolve path with
  | error f => simp [hr, bind, Except.bind] at h
  | ok target =>
    apply reaches_of_resolve hr (.refl (fun _ => False) t)
    simp only [hr, bind, Except.bind, pure, Except.pure, throw, throwThe,
      MonadExceptOf.throw] at h
    split at h
    next he => split at he <;> simp_all; split at he <;> simp_all
    next => cases h

/-- What is read where a path leads. -/
theorem read_of_resolve {path : String} {target : Target} (h : t.resolve path = .ok target) :
    t.read path = match t.find? target.place with
      | none => .error .notFound
      | some .directory => .error .isADirectory
      | some .fullDevice => .error (if target.slash then .notADirectory else .endless)
      | some (.file n) => if target.slash then .error .notADirectory else .ok (t.content n) := by
  simp only [read, look, h, Failing.ok_bind]
  cases t.find? target.place with
  | none => rfl
  | some e => cases e <;> cases target.slash <;> rfl

/-- A path that leads to the same place is read as before if the place is the same. -/
theorem read_congr {path : String} (hr : t'.resolve path = t.resolve path)
    (hs : ∀ target, t.resolve path = .ok target → Same t t' target.place) :
    t'.read path = t.read path := by
  cases h : t.resolve path with
  | error f => simp only [read, look, hr, h, Failing.error_bind]
  | ok target =>
    have hsame := hs target h
    rw [read_of_resolve h, read_of_resolve (hr.trans h), hsame.find]
    cases hf : t.find? target.place with
    | none => rfl
    | some e =>
      -- what is read of a place is told by its entry, and by the content of a file
      cases e with
      | file n => simp only [hsame.content n hf]
      | _ => rfl

/-- A file in a directory that can be entered is read as before if its place is the same. -/
theorem read_join_congr {dir name : String} (h : Path.isPlainName name = true)
    (ht : t.Reaches dir) (ht' : t'.Reaches dir) (hs : Same t t' (Path.place dir ++ [name])) :
    t'.read (Path.join dir name) = t.read (Path.join dir name) := by
  apply read_congr (resolve_join_congr h ht ht')
  intro target hr
  rw [(reaches_of_resolve_join h hr).2]
  exact hs

/-- Below a directory that can be entered, a file in a directory of its own is read as before if the
places of both are the same. -/
theorem read_below_congr {dir name name' : String} (h : Path.isPlainName name = true)
    (h' : Path.isPlainName name' = true) (ht : t.Reaches dir) (ht' : t'.Reaches dir)
    (hdir : t'.find? (Path.place dir ++ [name]) = t.find? (Path.place dir ++ [name]))
    (hs : Same t t' (Path.place dir ++ [name, name'])) :
    t'.read (Path.join (Path.join dir name) name') =
      t.read (Path.join (Path.join dir name) name') := by
  have henter : t'.enter (Path.place dir) name = t.enter (Path.place dir) name := by
    unfold enter
    rw [hdir]
  -- below a directory that is reached there is one more step to take
  have hway : ∀ u : FileTree, u.Reaches dir →
      (Path.names (Path.join dir name)).foldlM u.enter (Path.origin (Path.join dir name)) =
        u.enter (Path.place dir) name := by
    intro u hu
    rw [Reaches] at hu
    rw [Path.names_join dir h, Path.origin, Path.isAbsolute_join dir h, ← Path.origin,
      List.foldlM_append, hu]
    show u.enter (Path.place dir) name >>= pure = _
    cases u.enter (Path.place dir) name <;> rfl
  apply read_congr
  · rw [resolve_join t' _ h', resolve_join t _ h', hway t ht, hway t' ht', henter]
  · intro target hr
    rw [(reaches_of_resolve_join h' hr).2, Path.place_join dir h]
    show Same t t' (Path.place dir ++ [name] ++ [name'])
    rw [List.append_assoc]
    exact hs

end FileTree

/-! ## The changes -/

namespace Files

open FileTree Stateful

variable {t t' : FileTree} {P : Place → Prop}

/-- A question that is answered changes nothing. -/
@[simp] theorem ask_of_ok {α : Type} {f : FileTree → Except StorageFault α} {a : α}
    (h : f t = .ok a) : ask f t = .ok a t := by
  simp [ask, h]

/-- Only the place of a file sees what the file holds. -/
theorem setContent_changes {n : Nat} (bytes : List UInt8)
    (hP : ∀ p, t.find? p = some (.file n) → P p) : ChangesOnly P t (t.setContent n bytes) where
  same p hp := by
    refine ⟨rfl, fun m hm => ?_⟩
    rw [content_setContent, if_neg]
    rintro ⟨rfl, -⟩
    exact hp (hP p hm)
  directory _ h := h

/-! ### Opening -/

/-- What opening a file for writing does where the path leads. -/
theorem create_of_resolve {path : String} {target : Target} (h : t.resolve path = .ok target) :
    create path t =
      if target.slash then .error .isADirectory t
      else match t.find? target.place with
        | some .directory => .error .isADirectory t
        | some .fullDevice => .ok .fullDevice t
        | some (.file n) =>
          if t.refuses n then .error .refused t else .ok (.file n) (t.setContent n [])
        | none => .ok (.file t.contents.size) (t.putFile target.place) := by
  unfold create
  rw [run_bind, ask_of_ok h]
  simp only [run_bind, run_ite]
  split
  · rfl
  · simp only [run_get]
    -- the entry at the place decides, and for a file whether it refuses
    cases t.find? target.place with
    | none => rfl
    | some e =>
      cases e with
      | file n =>
        cases hr : t.refuses n with
        | true => simp [run_bind, run_get, hr]
        | false =>
          simp [run_bind, run_get, hr]
          rfl
      | _ => rfl

/-- Opening a file gives a sink: the file is emptied, or it is made, or it is a device. -/
theorem create_ok {path : String} {sink : Sink} (h : create path t = .ok sink t') :
    ∃ target, t.resolve path = .ok target ∧ target.slash = false ∧
      ((∃ n, t.find? target.place = some (.file n) ∧ sink = .file n ∧
          t' = t.setContent n []) ∨
        (t.find? target.place = none ∧ sink = .file t.contents.size ∧
          t' = t.putFile target.place) ∨
        (t.find? target.place = some .fullDevice ∧ sink = .fullDevice ∧ t' = t)) := by
  cases hr : t.resolve path with
  | error f => simp [create, run_bind, ask, hr] at h
  | ok target =>
    rw [create_of_resolve hr] at h
    refine ⟨target, rfl, ?_⟩
    -- of the faults none is left, so that three entries remain
    split at h
    · cases h
    next hs =>
      refine ⟨by simpa using hs, ?_⟩
      split at h
      · cases h
      next hf => cases h; exact .inr (.inr ⟨hf, rfl, rfl⟩)
      next n hf =>
        split at h
        · cases h
        · cases h; exact .inl ⟨n, hf, rfl, rfl⟩
      next hf => cases h; exact .inr (.inl ⟨hf, rfl, rfl⟩)

/-- What cannot be opened stays as it is. -/
theorem create_error {path : String} {f : StorageFault} (h : create path t = .error f t') :
    t' = t := by
  cases hr : t.resolve path with
  | error f =>
    simp [create, run_bind, ask, hr] at h
    exact h.2.symm
  | ok target =>
    -- every fault comes before anything is written
    rw [create_of_resolve hr] at h
    split at h
    · cases h; rfl
    · split at h
      · cases h; rfl
      · cases h
      · split at h <;> cases h
        rfl
      · cases h

/-- Opening a file for writing touches its place. -/
theorem create_changes (path : String) (t : FileTree) :
    ChangesOnly (· = Path.place path) t (finalState (create path) t) := by
  cases h : create path t with
  | error f t' =>
    rw [finalState_of_error h, create_error h]
    exact .refl _ _
  | ok sink t' =>
    rw [finalState_of_ok h]
    obtain ⟨target, hr, -, ⟨n, hf, -, rfl⟩ | ⟨hf, -, rfl⟩ | ⟨-, -, rfl⟩⟩ := create_ok h
    · -- an existing file is emptied, wherever else its number stands
      rw [← resolve_place hr]
      exact setContent_changes [] fun p hp => place_unique hp hf
    · rw [← resolve_place hr]
      -- a new file takes a free place
      refine ⟨fun p hp => ⟨?_, fun n _ => content_putFile t target.place n⟩, fun p hp => ?_⟩
      · rw [find?_putFile hf, if_neg (Ne.symm hp)]
      · rw [find?_putFile hf, if_neg]
        · exact hp
        · rintro rfl
          simp [hf] at hp
    · exact .refl _ _

/-! ### Writing -/

/-- A full device takes nothing. -/
@[simp] theorem writeAt_fullDevice (offset : Nat) (bytes : List UInt8) (t : FileTree) :
    finalState (writeAt .fullDevice offset bytes) t = t := by
  cases hb : bytes.isEmpty with
  | true => exact finalState_of_ok (a := ()) (by rw [writeAt, hb]; rfl)
  | false => exact finalState_of_error (e := .full) (by rw [writeAt, hb]; rfl)

/-- Writing touches the place of the file that is written. -/
theorem writeAt_changes (sink : Sink) (offset : Nat) (bytes : List UInt8)
    (hP : ∀ n, sink = .file n → ∀ p, t.find? p = some (.file n) → P p) :
    ChangesOnly P t (finalState (writeAt sink offset bytes) t) := by
  cases sink with
  | file n => exact setContent_changes _ (hP n rfl)
  | fullDevice =>
    rw [writeAt_fullDevice]
    exact .refl _ _

/-! ### Removing -/

/-- What removing a file does where the path leads. -/
theorem remove_of_resolve {path : String} {target : Target} (h : t.resolve path = .ok target) :
    remove path t =
      match t.find? target.place with
      | none => .error .notFound t
      | some .directory => .error .isADirectory t
      | some _ => if target.slash then .error .notADirectory t
        else .ok () (t.restrict (· ≠ target.place)) := by
  simp only [remove, run_bind, ask, look, h, Failing.ok_bind]
  cases t.find? target.place with
  | none => rfl
  | some e => cases e <;> cases target.slash <;> rfl

/-- Removing a file leaves all as it is, or takes away what is no directory. -/
theorem remove_cases (path : String) (t : FileTree) :
    finalState (remove path) t = t ∨
      t.find? (Path.place path) ≠ some .directory ∧
        finalState (remove path) t = t.restrict (· ≠ Path.place path) := by
  cases hr : t.resolve path with
  | error f =>
    have h : remove path t = .error f t := by
      simp only [remove, run_bind, ask, look, hr, Failing.error_bind]
    exact .inl (finalState_of_error h)
  | ok target =>
    have h := remove_of_resolve hr
    simp only [resolve_place hr] at h
    split at h
    · exact .inl (finalState_of_error h)
    · exact .inl (finalState_of_error h)
    -- only here something is taken away, and it is no directory
    next e hne hf =>
      split at h
      · exact .inl (finalState_of_error h)
      · refine .inr ⟨?_, finalState_of_ok h⟩
        rw [hf]
        exact fun he => hne (Option.some.inj he)

/-- Removing a file touches its place. -/
theorem remove_changes (path : String) (t : FileTree) :
    ChangesOnly (· = Path.place path) t (finalState (remove path) t) := by
  rcases remove_cases path t with h | ⟨hd, h⟩
  · rw [h]
    exact .refl _ _
  · rw [h]
    refine ⟨fun p hp => ⟨?_, fun _ _ => rfl⟩, fun p hp => ?_⟩
    · exact (find?_restrict_ne hd p).trans (if_neg (Ne.symm hp))
    · refine (find?_restrict_ne hd p).trans ((if_neg ?_).trans hp)
      rintro rfl
      exact hd hp

/-! ### Renaming -/

/-- What renaming does where the paths lead. -/
theorem rename_of_resolve {source target : String} {src dst : Target}
    (hs : t.resolve source = .ok src) (hd : t.resolve target = .ok dst) :
    rename source target t =
      if src.nameless || dst.nameless then .error .busy t
      else match t.find? src.place with
        | none => .error .notFound t
        | some .directory => .error .isADirectory t
        | some _ =>
          if src.slash || dst.slash then .error .notADirectory t
          else if t.find? dst.place = some .directory then .error .isADirectory t
          else if src.place = dst.place then .ok () t
          else .ok () (t.move src.place dst.place) := by
  unfold rename
  simp only [run_bind, ask, hs, hd, run_ite, run_throw, run_get]
  split
  · rfl
  · -- what is renamed decides; everything else is computed
    cases t.find? src.place with
    | none => rfl
    | some e =>
      cases e with
      | directory => rfl
      | _ =>
        simp only [run_bind, run_ite, run_pure, run_throw, run_get, run_modify]

/-- Renaming fails and leaves all as it is, or has nothing to do, or moves what is no directory to
where none is. -/
theorem rename_cases (source target : String) (t : FileTree) :
    (∃ f, rename source target t = .error f t) ∨
      Path.place source = Path.place target ∧ rename source target t = .ok () t ∨
      ∃ e src dst, t.resolve source = .ok src ∧ t.resolve target = .ok dst ∧
        t.find? (Path.place source) = some e ∧ e ≠ .directory ∧
        t.find? (Path.place target) ≠ some .directory ∧
        rename source target t = .ok () (t.move (Path.place source) (Path.place target)) := by
  cases hs : t.resolve source with
  | error f => exact .inl ⟨f, by simp only [rename, run_bind, ask, hs]⟩
  | ok src =>
    cases hd : t.resolve target with
    | error f => exact .inl ⟨f, by simp only [rename, run_bind, ask, hs, hd]⟩
    | ok dst =>
      -- all faults leave the tree alone; what is left is a move, or none onto itself
      have h := rename_of_resolve hs hd
      rw [resolve_place hs, resolve_place hd] at h
      split at h
      · exact .inl ⟨_, h⟩
      · split at h
        · exact .inl ⟨_, h⟩
        · exact .inl ⟨_, h⟩
        next e hne hf =>
          split at h
          · exact .inl ⟨_, h⟩
          · split at h
            · exact .inl ⟨_, h⟩
            next hdst =>
              split at h
              next hsame => exact .inr (.inl ⟨hsame, h⟩)
              next => exact .inr (.inr ⟨e, src, dst, rfl, rfl, hf, hne, hdst, h⟩)

/-- Renaming a file touches the places of both names. -/
theorem rename_changes (source target : String) (t : FileTree) :
    ChangesOnly (fun p => p = Path.place source ∨ p = Path.place target) t
      (finalState (rename source target) t) := by
  rcases rename_cases source target t with ⟨f, h⟩ | ⟨-, h⟩ |
    ⟨e, src, dst, -, -, hf, he, hdst, h⟩
  · rw [finalState_of_error h]
    exact .refl _ _
  · rw [finalState_of_ok h]
    exact .refl _ _
  · rw [finalState_of_ok h]
    -- neither the source nor the target was a directory
    refine ⟨fun p hp => ⟨?_, fun n _ => content_move t _ _ n⟩, fun p hp => ?_⟩
    · rw [find?_move hf he hdst, if_neg fun h => hp (.inr h.symm),
        if_neg fun h => hp (.inl h.symm)]
    · rw [find?_move hf he hdst, if_neg, if_neg]
      · exact hp
      · rintro rfl
        rw [hf] at hp
        exact he (Option.some.inj hp)
      · rintro rfl
        exact hdst hp

/-- Renaming that fails changes nothing. -/
theorem rename_error {source target : String} {f : StorageFault}
    (h : rename source target t = .error f t') : t' = t := by
  rcases rename_cases source target t with ⟨g, h'⟩ | ⟨-, h'⟩ | ⟨_, _, _, -, -, -, -, -, h'⟩
  · rw [h] at h'
    cases h'
    rfl
  · cases h.symm.trans h'
  · cases h.symm.trans h'

/-- What was renamed stands under its new name. -/
theorem rename_ok {source target : String} {e : Entry} (h : rename source target t = .ok () t')
    (hf : t.find? (Path.place source) = some e) (hne : Path.place source ≠ Path.place target) :
    t'.find? (Path.place target) = some e ∧ (∀ n, t'.content n = t.content n) ∧
      ∃ src dst, t.resolve source = .ok src ∧ t.resolve target = .ok dst := by
  rcases rename_cases source target t with ⟨f, h'⟩ | ⟨hsame, -⟩ |
    ⟨e', src, dst, hs, hd, hf', he, hdst, h'⟩
  · cases h.symm.trans h'
  · exact absurd hsame hne
  · obtain rfl := Option.some.inj (hf.symm.trans hf')
    rw [h] at h'
    cases h'
    refine ⟨?_, content_move t _ _, src, dst, hs, hd⟩
    rw [find?_move hf he hdst, if_pos rfl]

/-! ### Whole files -/

/-- A file that was opened stands, empty, where its path leads. -/
theorem create_file {path : String} {n : Nat} (h : create path t = .ok (.file n) t') :
    t'.find? (Path.place path) = some (.file n) ∧ t'.content n = [] := by
  obtain ⟨target, hr, -, ⟨m, hf, hs, rfl⟩ | ⟨hf, hs, rfl⟩ | ⟨-, hs, -⟩⟩ := create_ok h
  · cases hs
    rw [← resolve_place hr, content_setContent, if_pos ⟨rfl, lt_size_of_find? hf⟩]
    exact ⟨hf, rfl⟩
  · cases hs
    rw [← resolve_place hr, find?_putFile hf, content_putFile]
    simp [content]
  · cases hs

/-- Writing a whole file touches its place. -/
theorem write_changes (path : String) (bytes : List UInt8) (t : FileTree) :
    ChangesOnly (· = Path.place path) t (finalState (write path bytes) t) := by
  refine finalState_bind_induct (create_changes path t) fun sink t' h hc => ?_
  apply hc.trans
  apply writeAt_changes
  rintro n rfl p hp
  exact place_unique hp (create_file h).1

/-- A whole file that was written holds its bytes; a device takes none. -/
theorem write_ok {path : String} {bytes : List UInt8} (h : write path bytes t = .ok () t')
    (hb : bytes ≠ []) :
    ∃ n, t'.find? (Path.place path) = some (.file n) ∧ t'.content n = bytes := by
  obtain ⟨sink, t₁, hc, h⟩ := run_bind_ok.1 h
  cases sink with
  | file n =>
    obtain ⟨hf, hn⟩ := create_file hc
    rw [writeAt, run_modify] at h
    cases h
    refine ⟨n, hf, ?_⟩
    -- the file was emptied when it was opened, so that the bytes are all that stands in it
    rw [content_setContent, if_pos ⟨rfl, lt_size_of_find? hf⟩, hn]
    exact splice_length [] bytes
  | fullDevice =>
    rw [writeAt, if_neg (by simpa using hb), run_throw] at h
    cases h

/-! ### Making directories -/

/-- A directory is made where the path leads, if nothing is there. -/
theorem createDirectory_of_resolve {path : String} {target : Target}
    (h : t.resolve path = .ok target) :
    createDirectory path t =
      match t.find? target.place with
      | some _ => .error .alreadyExists t
      | none => .ok () (t.put target.place .directory (by simp)) := by
  simp only [createDirectory, run_bind, ask, h, run_get]
  cases t.find? target.place <;> rfl

/-- No directory is made where the path leads nowhere. -/
theorem createDirectory_of_error {path : String} {f : StorageFault}
    (h : t.resolve path = .error f) : createDirectory path t = .error f t := by
  simp only [createDirectory, run_bind, ask, h]

/-- Making a directory that may be there already: it is new, or it was there, or the fault of
making it stays. -/
theorem ensureDirectory_cases (path : String) (t : FileTree) :
    (∃ target, t.resolve path = .ok target ∧ t.find? target.place = none ∧
        ensureDirectory path t = .ok () (t.put target.place .directory (by simp))) ∨
      (t.isDirectory path = true ∧ ensureDirectory path t = .ok () t) ∨
      ∃ f, createDirectory path t = .error f t ∧ ensureDirectory path t = .error f t := by
  -- a directory that cannot be made may be there already
  have hold : ∀ f, createDirectory path t = .error f t →
      (t.isDirectory path = true ∧ ensureDirectory path t = .ok () t) ∨
        ∃ f, createDirectory path t = .error f t ∧ ensureDirectory path t = .error f t := by
    intro f h
    cases hd : t.isDirectory path with
    | true => exact .inl ⟨rfl, by simp [ensureDirectory, h, hd]⟩
    | false => exact .inr ⟨f, h, by simp [ensureDirectory, h, hd]⟩
  cases hr : t.resolve path with
  | error f => exact .inr (hold f (createDirectory_of_error hr))
  | ok target =>
    have h := createDirectory_of_resolve hr
    cases hf : t.find? target.place with
    | some e => rw [hf] at h; exact .inr (hold _ h)
    | none => rw [hf] at h; exact .inl ⟨target, rfl, hf, by simp [ensureDirectory, h]⟩

/-- Making a directory touches its place. -/
theorem ensureDirectory_changes (path : String) (t : FileTree) :
    ChangesOnly (· = Path.place path) t (finalState (ensureDirectory path) t) := by
  obtain ⟨target, hr, hf, h⟩ | ⟨-, h⟩ | ⟨f, -, h⟩ := ensureDirectory_cases path t
  · rw [finalState_of_ok h, ← resolve_place hr]
    exact .put hf
  · rw [finalState_of_ok h]; exact .refl _ _
  · rw [finalState_of_error h]; exact .refl _ _

/-- A directory that was made can be entered. -/
theorem ensureDirectory_reaches {path : String} (h : ensureDirectory path t = .ok () t') :
    t'.Reaches path := by
  obtain ⟨target, hr, hf, h'⟩ | ⟨hd, h'⟩ | ⟨f, -, h'⟩ := ensureDirectory_cases path t
  · rw [h] at h'
    cases h'
    exact reaches_of_resolve hr (.put hf) (by rw [find?_put hf, if_pos rfl])
  · rw [h] at h'
    cases h'
    exact reaches_of_isDirectory hd
  · rw [h] at h'
    cases h'

/-- Making directories goes up only where something on the way is missing. -/
theorem createDirectoriesUp_succ (steps : Nat) {path : String} (hp : path.isEmpty = false) :
    createDirectoriesUp (steps + 1) path t =
      match ensureDirectory path t with
      | .error .notFound t' => (match Path.parent? path with
        | some p => (createDirectoriesUp steps p >>= fun _ => ensureDirectory path) t'
        | none => .error .notFound t')
      | r => r := by
  have hif : ∀ x y : Files Unit, (if path.isEmpty = true then x else y) = y := by simp [hp]
  exact congrFun (hif _ _) t

/-- Making directories is making the last of them, if need be after those above it. -/
theorem createDirectoriesUp_cases (steps : Nat) (path : String) (t : FileTree) :
    (path.isEmpty = true ∧ createDirectoriesUp steps path t = .ok () t) ∨
      createDirectoriesUp steps path t = ensureDirectory path t ∨
      ∃ rest parent t₁, steps = rest + 1 ∧ Path.parent? path = some parent ∧
        ensureDirectory path t = .error .notFound t₁ ∧
        createDirectoriesUp steps path t =
          (createDirectoriesUp rest parent >>= fun _ => ensureDirectory path) t₁ := by
  cases hp : path.isEmpty with
  | true => cases steps <;> exact .inl ⟨rfl, by simp [createDirectoriesUp, hp, run_pure]⟩
  | false =>
    refine .inr ?_
    cases steps with
    | zero => exact .inl (by simp [createDirectoriesUp, hp])
    | succ rest =>
      -- only what was not found is looked for one level up
      have h := @createDirectoriesUp_succ t rest path hp
      split at h
      next t₁ he =>
        split at h
        next parent hparent => exact .inr ⟨rest, parent, t₁, rfl, hparent, he, h⟩
        next => exact .inl (h.trans he.symm)
      next => exact .inl h

/-- Of the directories that are made the one asked for comes last. -/
theorem createDirectoriesUp_ok {steps : Nat} {path : String}
    (h : createDirectoriesUp steps path t = .ok () t') :
    path.isEmpty = true ∨ ∃ t₁, ensureDirectory path t₁ = .ok () t' := by
  rcases createDirectoriesUp_cases steps path t with ⟨hp, -⟩ | he |
    ⟨rest, parent, t₁, -, -, -, he⟩
  · exact .inl hp
  · exact .inr ⟨t, he ▸ h⟩
  · rw [he] at h
    obtain ⟨-, t₂, -, h⟩ := run_bind_ok.1 h
    exact .inr ⟨t₂, h⟩

/-- Directories that were made can be entered. -/
theorem createDirectories_reaches {path : String} (h : createDirectories path t = .ok () t') :
    t'.Reaches path := by
  rcases createDirectoriesUp_ok h with hp | ⟨t₁, he⟩
  · rw [String.isEmpty_iff] at hp
    subst hp
    rfl
  · exact ensureDirectory_reaches he

/-- In a directory that can be entered, making a directory needs no other. -/
theorem createDirectories_join {dir name : String} (hn : Path.isPlainName name = true)
    (hd : t.Reaches dir) : createDirectories (Path.join dir name) t =
      ensureDirectory (Path.join dir name) t := by
  have hne := Path.isEmpty_join dir hn
  -- the directory above is there, so that nothing is missing on the way
  have hfound : ∀ t', ensureDirectory (Path.join dir name) t ≠ .error .notFound t' := by
    intro t' h'
    obtain ⟨target, -, -, h⟩ | ⟨-, h⟩ | ⟨f, hf, h⟩ := ensureDirectory_cases (Path.join dir name) t
    · rw [h] at h'; cases h'
    · rw [h] at h'; cases h'
    · rw [h] at h'
      cases h'
      cases hr : t.resolve (Path.join dir name) with
      | error g =>
        rw [createDirectory_of_error hr] at hf
        cases hf
        rw [resolve_join t dir hn, hd] at hr
        simp only at hr
        repeat (split at hr; cases hr)
        cases hr
      | ok target =>
        rw [createDirectory_of_resolve hr] at hf
        split at hf <;> cases hf
  unfold createDirectories
  cases hl : (Path.join dir name).length with
  | zero => simp [createDirectoriesUp, hne]
  | succ steps =>
    rw [createDirectoriesUp_succ steps hne]
    split
    next t' h => exact absurd h (hfound t')
    next => rfl

/-- In a directory that can be entered, making a directory touches its own place. -/
theorem createDirectories_changes {dir name : String} (hn : Path.isPlainName name = true)
    (hd : t.Reaches dir) : ChangesOnly (· = Path.place dir ++ [name]) t
      (finalState (createDirectories (Path.join dir name)) t) := by
  have h := ensureDirectory_changes (Path.join dir name) t
  rw [Path.place_join dir hn] at h
  unfold finalState at h ⊢
  rw [createDirectories_join hn hd]
  exact h

end Files

end Deployment
