import Deployment.Proofs.Storage.Retention
import Mathlib.Data.List.Induction
import Mathlib.Data.List.TakeWhile

/-! # Trees that grow

Making a directory makes those above it first. A path that led nowhere may lead somewhere after
that, and so what is said of it may change although nothing was written there.

* **`Path.names_of_isAbove`** — the paths above a path are spelt by its first names.
* **`FileTree.Closed`** — whatever stands in a tree stands in a directory.
* **`FileTree.walk`** — where a path leads, one name after the other.
* **`FileTree.Straight`** — a path does not step up from where nothing is.
* **`Grows`** — nothing but some directories were added, but for some places.
* **`Grows.walk_cases`** — a path leads where it led, unless it led nowhere.
* **`Grows.read_cases`** — what reading a file can come to in a tree that has grown.
* **`Grows.read_lies`** — a path that leads to its place is read as what lies there. -/

namespace Deployment

open Stateful

/-! ## Paths above a path -/

namespace Path

/-- The words between the slashes of a text. -/
def words (s : List Char) : List (List Char) := (segments s).filter fun w => !w.isEmpty

/-- The names of a path are its words. -/
theorem names_eq (p : String) : names p = (words p.toList).map String.ofList := rfl

/-- A slash parts the words before it from those behind it. -/
@[simp] theorem words_append_slash (s s' : List Char) :
    words (s ++ '/' :: s') = words s ++ words s' := by
  rw [words, segments_append_slash, List.filter_append, ← words, ← words]

/-- A slash at the end adds no word. -/
@[simp] theorem words_slash (s : List Char) : words (s ++ ['/']) = words s := by
  rw [words_append_slash, show words [] = [] from rfl, List.append_nil]

/-- What is left of a path without its ends begins with the same words. -/
theorem words_dropEnds (l : List Char) : words (dropEnds l).reverse <+: words l.reverse := by
  induction l with
  | nil => exact List.prefix_refl _
  | cons c rest ih =>
    rw [dropEnds, List.reverse_cons]
    split
    next hc =>
      subst hc
      split
      next hrest =>
        rw [List.isEmpty_iff.1 hrest]
        exact List.prefix_refl _
      next => rw [words_slash]; exact ih
    next hc =>
      split
      next hdot =>
        -- the dot is a word of its own, for a slash stands before it
        obtain ⟨rfl, hslash⟩ : c = '.' ∧ rest.head? = some '/' := by simpa using hdot
        obtain ⟨rest', rfl⟩ : ∃ rest', rest = '/' :: rest' := by
          cases rest with
          | nil => cases hslash
          | cons d rest' => exact ⟨rest', by rw [Option.some.inj hslash]⟩
        refine ih.trans ?_
        rw [List.reverse_cons, words_slash, List.append_assoc, List.singleton_append,
          words_append_slash]
        exact List.prefix_append _ _
      next => simp only [List.reverse_cons, List.prefix_refl]

/-- What is left of a path without its ends starts as the path does. -/
@[simp] theorem getLast?_dropEnds (l : List Char) : (dropEnds l).getLast? = l.getLast? := by
  induction l with
  | nil => rfl
  | cons c rest ih =>
    have hlast : rest ≠ [] → (c :: rest).getLast? = rest.getLast? := fun hne => by
      rw [List.getLast?_cons, List.getLast?_eq_some_getLast hne]
      rfl
    rw [dropEnds]
    split
    · split
      next hrest => rw [List.isEmpty_iff.1 hrest]
      next hrest => rw [ih, hlast (by simpa using hrest)]
    · split
      -- a dot that is dropped is not the last character
      next hdot =>
        rw [ih, hlast]
        rintro rfl
        simp at hdot
      next => rfl

/-- The parent of a path is spelt by its first names, and starts as the path does. -/
theorem names_of_parent {path parent : String} (h : parent? path = some parent) :
    names parent <+: names path ∧ isAbsolute parent = isAbsolute path := by
  have hwhole := words_dropEnds path.toList.reverse
  have hstart := getLast?_dropEnds path.toList.reverse
  simp only [parent?] at h
  split at h
  · cases h
  next hne =>
    generalize dropEnds path.toList.reverse = whole at h hwhole hstart hne
    cases h
    rw [List.reverse_reverse] at hwhole
    rw [List.getLast?_reverse] at hstart
    have hback := words_dropEnds (whole.dropWhile (· ≠ '/'))
    have hback' := getLast?_dropEnds (whole.dropWhile (· ≠ '/'))
    generalize hrest : whole.dropWhile (· ≠ '/') = rest at hback hback' ⊢
    have hsplit : whole = whole.takeWhile (· ≠ '/') ++ rest := by
      rw [← hrest, List.takeWhile_append_dropWhile]
    constructor
    · rw [names_eq, names_eq, String.toList_ofList]
      refine List.IsPrefix.map _ (hback.trans (List.IsPrefix.trans ?_ hwhole))
      -- what stands before the last slash is spelt by the words before it
      rw [hsplit, List.reverse_append]
      cases rest with
      | nil => exact List.nil_prefix
      | cons c rest' =>
        have hhead := List.head_dropWhile_not (fun c => decide (c ≠ '/')) (l := whole)
          (by rw [hrest]; exact List.cons_ne_nil _ _)
        simp only [hrest, List.head_cons] at hhead
        obtain rfl : c = '/' := by simpa using hhead
        rw [List.reverse_cons, words_slash, List.append_assoc, List.singleton_append,
          words_append_slash]
        exact List.prefix_append _ _
    · rw [isAbsolute, isAbsolute, String.toList_ofList, List.head?_reverse, hback', ← hstart]
      cases rest with
      | nil =>
        have hnone : '/' ∉ whole := fun hm => by
          simpa using List.dropWhile_eq_nil_iff.1 hrest '/' hm
        have hlast : whole.getLast? ≠ some '/' := fun hl => hnone (List.mem_of_getLast? hl)
        simp [hlast]
      | cons c rest' =>
        rw [hsplit, List.getLast?_append, List.getLast?_cons, Option.some_or]

/-- The paths above a path are spelt by its first names. -/
theorem names_of_isAbove {q path : String} (h : IsAbove q path) :
    names q <+: names path ∧ isAbsolute q = isAbsolute path := by
  induction h with
  | refl => exact ⟨List.prefix_refl _, rfl⟩
  | tail _ hparent ih =>
    obtain ⟨hnames, habsolute⟩ := names_of_parent hparent
    exact ⟨hnames.trans ih.1, habsolute.trans ih.2⟩

/-- Names without steps up lead below where they start. -/
theorem prefix_descendAll {names : List String} (h : ".." ∉ names) (p : Place) :
    p <+: names.foldl descend p := by
  induction names generalizing p with
  | nil => exact List.prefix_refl p
  | cons name rest ih =>
    obtain ⟨hname, hrest⟩ := not_or.1 (mt List.mem_cons.2 h)
    refine List.IsPrefix.trans ?_ (ih hrest (descend p name))
    rw [descend, if_neg (Ne.symm hname)]
    split
    · exact List.prefix_refl p
    · exact List.prefix_append p [name]

end Path

/-- Where a path leads nowhere no file is written. -/
theorem Files.write_of_error {t : FileTree} {path : String} {f : StorageFault}
    (hr : t.resolve path = .error f) (bytes : List UInt8) : write path bytes t = .error f t := by
  simp only [write, create, run_bind, ask, hr]

namespace FileTree

variable {t t' t'' : FileTree}

/-! ## Closed trees -/

/-- Whatever stands in a tree stands in a directory. -/
def Closed (t : FileTree) : Prop :=
  ∀ p name, t.find? (p ++ [name]) ≠ none → t.find? p = some .directory

namespace Closed

/-- In an empty tree nothing stands outside of a directory. -/
theorem empty : FileTree.empty.Closed := by
  intro p name h
  rcases List.eq_nil_or_concat p with rfl | ⟨q, last, rfl⟩
  · rfl
  · exfalso
    refine h (Eq.trans (find?_eq _ ?_ ?_) rfl)
    · simp
    · intro he
      have hlength := congrArg List.length he
      simp [root] at hlength

/-- Nothing stands below a place where nothing is. -/
theorem find?_below (h : t.Closed) {p : Place} (hp : t.find? p = none) {q : Place}
    (hq : p <+: q) : t.find? q = none := by
  obtain ⟨names, rfl⟩ := hq
  induction names using List.reverseRecOn with
  | nil => rwa [List.append_nil]
  | append_singleton names name ih =>
    rw [← List.append_assoc]
    cases hq : t.find? (p ++ names ++ [name]) with
    | none => rfl
    | some e =>
      have hdir := h (p ++ names) name (by rw [hq]; exact nofun)
      cases ih.symm.trans hdir

/-- The directory above a directory is there. -/
theorem find?_above (h : t.Closed) {p : Place} (hp : t.find? p = some .directory) :
    t.find? (above p) = some .directory := by
  unfold above
  split
  · rfl
  · rcases List.eq_nil_or_concat p with rfl | ⟨q, last, rfl⟩
    · rfl
    · rw [List.concat_eq_append] at hp ⊢
      rw [List.dropLast_concat]
      exact h q last (by rw [hp]; exact nofun)

/-- Whatever names can be entered lead to a directory. -/
theorem find?_of_enterAll (h : t.Closed) {names : List String} {p q : Place}
    (hp : t.find? p = some .directory) (he : names.foldlM t.enter p = .ok q) :
    t.find? q = some .directory := by
  induction names generalizing p with
  | nil => cases he; exact hp
  | cons name rest ih =>
    rw [List.foldlM_cons] at he
    cases hname : t.enter p name with
    | error f => rw [hname] at he; cases he
    | ok p' =>
      rw [hname] at he
      refine ih ?_ he
      -- each step leads to a directory, up or down
      unfold enter at hname
      split at hname
      · cases hname; exact hp
      · split at hname
        · cases hname; exact h.find?_above hp
        · split at hname
          · cases hname
          · split at hname
            next hd => cases hname; exact hd
            · cases hname
            · cases hname

/-- Where a path leads there is a directory, or one that holds the place. -/
theorem find?_of_resolve (h : t.Closed) {path : String} {target : Target}
    (hr : t.resolve path = .ok target) :
    t.find? target.place = some .directory ∨
      ∃ p name, target.place = p ++ [name] ∧ t.find? p = some .directory := by
  have hstart : t.find? (Path.origin path) = some .directory := by
    unfold Path.origin
    split <;> rfl
  unfold resolve at hr
  simp only [bind, Except.bind, pure, Except.pure, throw, throwThe, MonadExceptOf.throw] at hr
  split at hr
  · cases hr
  · split at hr
    · cases hr
    · split at hr
      · cases hr
      · split at hr
        · cases hr
          exact .inl hstart
        next last hlast =>
          split at hr
          · cases hr
          next p hp =>
            -- in front of the last name there is a directory
            have hdir := h.find?_of_enterAll hstart hp
            split at hr
            · cases hr
              exact .inl hdir
            · split at hr
              · cases hr
                exact .inl (h.find?_above hdir)
              · split at hr <;> cases hr
                exact .inr ⟨p, last, rfl, hdir⟩

/-- A closed tree that is changed only where paths lead stays closed. -/
theorem of_changes {P : Place → Prop} (h : t.Closed) (hc : ChangesOnly P t t')
    (hP : ∀ p, P p → ∃ path target, t.resolve path = .ok target ∧ target.place = p) :
    t'.Closed := by
  intro p name hthere
  refine hc.directory p ?_
  by_cases hp : P (p ++ [name])
  · obtain ⟨path, target, hr, hplace⟩ := hP _ hp
    rcases h.find?_of_resolve hr with hdir | ⟨q, last, hq, hdir⟩
    · exact h p name (by rw [← hplace, hdir]; exact nofun)
    · obtain ⟨rfl, -⟩ := List.append_inj' (hplace.symm.trans hq) rfl
      exact hdir
  · rw [(hc.same _ hp).find] at hthere
    exact h p name hthere

/-- A change of the place of a path keeps a tree closed, if it is none where the path leads
nowhere. -/
theorem of_place {path : String} (h : t.Closed) (hc : ChangesOnly (· = Path.place path) t t')
    (hnone : ∀ f, t.resolve path = .error f → t' = t) : t'.Closed := by
  cases hr : t.resolve path with
  | error f => rwa [hnone f hr]
  | ok target =>
    refine h.of_changes hc ?_
    rintro p rfl
    exact ⟨path, target, hr, resolve_place hr⟩

/-- A directory that is made stands in the one above it. -/
theorem ensureDirectory (h : t.Closed) (path : String) :
    (finalState (Files.ensureDirectory path) t).Closed := by
  refine h.of_place (Files.ensureDirectory_changes path t) fun f hr => ?_
  obtain ⟨target, hr', -⟩ | ⟨-, h'⟩ | ⟨f, -, h'⟩ := Files.ensureDirectory_cases path t
  · cases hr.symm.trans hr'
  · exact finalState_of_ok h'
  · exact finalState_of_error h'

/-- Making directories keeps a tree closed. -/
theorem createDirectories (h : t.Closed) (path : String) :
    (finalState (Files.createDirectories path) t).Closed :=
  Files.createDirectories_induct (fun q _ _ h => h.ensureDirectory q) h

/-- Writing a file keeps a tree closed. -/
theorem write (h : t.Closed) (path : String) (bytes : List UInt8) :
    (finalState (Files.write path bytes) t).Closed :=
  h.of_place (Files.write_changes path bytes t) fun _ hr =>
    finalState_of_error (Files.write_of_error hr bytes)

/-- Renaming a file keeps a tree closed. -/
theorem rename (h : t.Closed) (source target : String) :
    (finalState (Files.rename source target) t).Closed := by
  have hc := Files.rename_changes source target t
  rcases Files.rename_cases source target t with ⟨f, h'⟩ | ⟨-, h'⟩ | ⟨_, src, dst, hs, hd, -⟩
  · rwa [finalState_of_error h']
  · rwa [finalState_of_ok h']
  · -- both paths lead somewhere, so what is moved ends up in a directory
    refine h.of_changes hc ?_
    rintro p (rfl | rfl)
    · exact ⟨source, src, hs, resolve_place hs⟩
    · exact ⟨target, dst, hd, resolve_place hd⟩

end Closed

/-! ## Walks -/

/-- Where the names of a path lead, from the first to the last. -/
def walk (t : FileTree) (path : String) : Except StorageFault Place :=
  (Path.names path).foldlM t.enter (Path.origin path)

/-- A path that leads nowhere cannot be read. -/
theorem read_of_error {path : String} {f : StorageFault} (h : t.resolve path = .error f) :
    t.read path = .error f := by
  simp only [FileTree.read, look, h, Failing.error_bind]

/-- A path to a file leads nowhere in any tree, or where the walk to its directory leads. -/
theorem resolve_join_cases (base : String) {name : String} (hn : Path.isPlainName name = true) :
    (∃ f, f ≠ .notFound ∧ ∀ t : FileTree, t.resolve (Path.join base name) = .error f) ∨
      ∀ t : FileTree, t.resolve (Path.join base name) = match t.walk base with
        | .error f => .error f
        | .ok p =>
          if maxName < name.utf8ByteSize then .error .nameTooLong
          else .ok ⟨p ++ [name], false, false⟩ := by
  -- these two faults are told by the path alone, whatever the tree is
  by_cases hzero : (Path.join base name).toList.contains '\x00' = true
  · refine .inl ⟨.zeroCharacter, nofun, fun t => ?_⟩
    rw [resolve_join t base hn, if_pos hzero]
  · by_cases hlong : maxPath < (Path.join base name).utf8ByteSize
    · refine .inl ⟨.nameTooLong, nofun, fun t => ?_⟩
      rw [resolve_join t base hn, if_neg hzero, if_pos hlong]
    · refine .inr fun t => ?_
      rw [resolve_join t base hn, if_neg hzero, if_neg hlong]
      rfl

/-! ## Straight paths -/

/-- The first names of a path can be entered, and those behind them do not step up. -/
def Straight (t : FileTree) (dir : String) : Prop :=
  ∃ front back p, Path.names dir = front ++ back ∧
    front.foldlM t.enter (Path.origin dir) = .ok p ∧ ".." ∉ back

namespace Straight

variable {dir name : String}

/-- A path that can be entered is straight. -/
theorem of_reaches (h : t.Reaches dir) : t.Straight dir :=
  ⟨Path.names dir, [], Path.place dir, (List.append_nil _).symm, h, List.not_mem_nil⟩

/-- A straight path stays so with a plain name below it. -/
theorem join (h : t.Straight dir) (hn : Path.isPlainName name = true) :
    t.Straight (Path.join dir name) := by
  obtain ⟨front, back, p, hnames, hfront, hback⟩ := h
  obtain ⟨-, -, -, hup⟩ := Path.isPlainName_iff.1 hn
  refine ⟨front, back ++ [name], p, ?_, ?_, ?_⟩
  · rw [Path.names_join dir hn, hnames, List.append_assoc]
  · rwa [Path.origin, Path.isAbsolute_join dir hn]
  · simp [hback, Ne.symm hup]

/-- Where nothing is above a straight path, its place is above that of the path. -/
theorem place_above (h : t.Straight dir) (closed : t.Closed) {q : String}
    (hq : Path.IsAbove q dir) (hnone : t.find? (Path.place q) = none) :
    Path.place q <+: Path.place dir := by
  obtain ⟨front, back, p, hnames, hfront, hback⟩ := h
  obtain ⟨hbegins, habsolute⟩ := Path.names_of_isAbove hq
  have horigin : Path.origin q = Path.origin dir := by rw [Path.origin, habsolute, Path.origin]
  rw [hnames] at hbegins
  rcases List.prefix_or_prefix_of_prefix hbegins (List.prefix_append front back) with hshort | hlong
  · -- what the first names lead to is there
    obtain ⟨rest, hrest⟩ := hshort
    rw [← hrest, ← horigin, List.foldlM_append] at hfront
    cases hwalk : (Path.names q).foldlM t.enter (Path.origin q) with
    | error f => rw [hwalk] at hfront; cases hfront
    | ok p' =>
      have hstart : t.find? (Path.origin q) = some .directory := by
        unfold Path.origin
        split <;> rfl
      have hthere := closed.find?_of_enterAll hstart hwalk
      rw [enterAll_eq hwalk] at hthere
      cases hnone.symm.trans hthere
  · obtain ⟨more, hmore⟩ := hlong
    rw [← hmore] at hbegins
    obtain ⟨rest, rfl⟩ := (List.prefix_append_right_inj front).1 hbegins
    have hup : ".." ∉ rest := fun hm => hback (List.mem_append_right more hm)
    rw [Path.place, Path.place, hnames, ← hmore, horigin, ← List.append_assoc front more rest,
      List.foldl_append (l := front ++ more)]
    exact Path.prefix_descendAll hup _

end Straight

/-! ## Growth -/

/-- Nothing that was there has changed and nothing but directories at places of a kind was added,
but for some places. -/
structure Grows (X D : Place → Prop) (t t' : FileTree) : Prop where
  retains : Retains X t t'
  made : ∀ p, ¬ X p → t.find? p = none →
    t'.find? p = none ∨ t'.find? p = some .directory ∧ D p

/-- What entering names comes to that lead through nothing that was there before: to a directory, to
nothing, or to a name that is too long. -/
def Lost (names : List String) (walk : Except StorageFault Place) : Prop :=
  (∃ q, walk = .ok q) ∨ walk = .error .notFound ∨
    walk = .error .nameTooLong ∧ ∃ name ∈ names, maxName < name.utf8ByteSize

/-- A way that is lost for some names is lost for more of them. -/
theorem Lost.mono {names names' : List String} {walk : Except StorageFault Place}
    (hn : names ⊆ names') (h : Lost names walk) : Lost names' walk :=
  h.imp_right fun h => h.imp_right fun ⟨hw, n, hmem, hlong⟩ => ⟨hw, n, hn hmem, hlong⟩

/-- A way that is lost stays so under one more name. -/
theorem Lost.cons {names : List String} {walk : Except StorageFault Place} (h : Lost names walk)
    (name : String) : Lost (name :: names) walk :=
  h.mono (List.subset_cons_self name names)

/-- What a name leads to that is neither a dot nor two. -/
theorem enter_of_name (t : FileTree) (p : Place) {name : String} (hdot : name ≠ ".")
    (hup : name ≠ "..") : t.enter p name =
      if maxName < name.utf8ByteSize then .error .nameTooLong
      else match t.find? (p ++ [name]) with
        | some .directory => .ok (p ++ [name])
        | some _ => .error .notADirectory
        | none => .error .notFound := by
  refine (if_neg hdot).trans ((if_neg hup).trans ?_)
  split
  · rfl
  · cases t.find? (p ++ [name]) with
    | none => rfl
    | some e => cases e <;> rfl

namespace Grows

variable {X D : Place → Prop}

/-- Where nothing is done, nothing grows. -/
theorem refl (X D : Place → Prop) (t : FileTree) : Grows X D t t :=
  ⟨.refl X t, fun _ _ hnone => .inl hnone⟩

/-- What grows and grows again has grown. -/
theorem trans (h : Grows X D t t') (h' : Grows X D t' t'') : Grows X D t t'' where
  retains := h.retains.trans h'.retains
  made p hX hnone := by
    rcases h.made p hX hnone with hnone' | ⟨hdir, hp⟩
    · exact h'.made p hX hnone'
    · exact .inr ⟨ChangesOnly.directory h'.retains p hdir, hp⟩

/-- A change of nothing but the places that are left out. -/
theorem of_changes (h : ChangesOnly X t t') : Grows X D t t' :=
  ⟨h.retains, fun p hX hnone => .inl ((h.same p hX).find.trans hnone)⟩

/-- Making a directory adds the one asked for and those above it where nothing was. -/
theorem createDirectories {path : String} (X : Place → Prop)
    (hD : ∀ q, Path.IsAbove q path → t.find? (Path.place q) = none → D (Path.place q)) :
    Grows X D t (finalState (Files.createDirectories path) t) := by
  refine ⟨Files.createDirectories_retains X path t, fun p _ hnone => ?_⟩
  have hmakes := Files.createDirectories_makes path t
  generalize finalState (Files.createDirectories path) t = t' at hmakes
  induction hmakes with
  | refl => exact .inl hnone
  | tail _ hmake ih =>
    obtain ⟨q, hq, -, hmade, hc⟩ := hmake.changes
    by_cases hp : p = Path.place q
    · subst hp
      exact .inr ⟨hmade, hD q hq hnone⟩
    · rw [(hc.same p hp).find]
      exact ih

/-- Below a place where nothing was, names lead to what was added. -/
theorem enterAll_missing (h : Grows X D t t') (closed : t.Closed) {names : List String}
    (hup : ".." ∉ names) {p : Place} (hp : t.find? p = none)
    (hX : ∀ q, q <+: names.foldl Path.descend p → ¬ X q) :
    Lost names (names.foldlM t'.enter p) := by
  induction names generalizing p with
  | nil => exact .inl ⟨p, rfl⟩
  | cons name rest ih =>
    obtain ⟨hname, hrest⟩ := not_or.1 (mt List.mem_cons.2 hup)
    rw [List.foldl_cons] at hX
    rw [List.foldlM_cons]
    by_cases hdot : name = "."
    · rw [Path.descend, if_pos hdot] at hX
      rw [enter, if_pos hdot]
      exact (ih hrest hp hX).cons name
    · rw [Path.descend, if_neg hdot, if_neg (Ne.symm hname)] at hX
      rw [enter_of_name t' p hdot (Ne.symm hname)]
      split
      next hlong => exact .inr (.inr ⟨rfl, name, List.mem_cons_self, hlong⟩)
      next =>
        -- nothing was there either, so what is there now is a directory that was made
        have hbelow := closed.find?_below hp (List.prefix_append p [name])
        rcases h.made _ (hX _ (Path.prefix_descendAll hrest _)) hbelow with hnone | ⟨hdir, -⟩
        · rw [hnone]
          exact .inr (.inl rfl)
        · rw [hdir]
          exact (ih hrest hbelow hX).cons name

/-- Names lead where they led, unless they led nowhere and something was added on their way. -/
theorem enterAll_cases (h : Grows X D t t') (closed : t.Closed) {names : List String}
    (hup : ".." ∉ names) {p : Place} (hX : ∀ q, q <+: names.foldl Path.descend p → ¬ X q) :
    names.foldlM t'.enter p = names.foldlM t.enter p ∨
      names.foldlM t.enter p = .error .notFound ∧
        t.find? (names.foldl Path.descend p) = none ∧ Lost names (names.foldlM t'.enter p) := by
  induction names generalizing p with
  | nil => exact .inl rfl
  | cons name rest ih =>
    obtain ⟨hname, hrest⟩ := not_or.1 (mt List.mem_cons.2 hup)
    rw [List.foldl_cons] at hX ⊢
    rw [List.foldlM_cons, List.foldlM_cons]
    by_cases hdot : name = "."
    · rw [Path.descend, if_pos hdot] at hX ⊢
      rw [enter, enter, if_pos hdot, if_pos hdot]
      exact (ih hrest hX).imp_right fun hlost => ⟨hlost.1, hlost.2.1, hlost.2.2.cons name⟩
    · rw [Path.descend, if_neg hdot, if_neg (Ne.symm hname)] at hX ⊢
      rw [enter_of_name t p hdot (Ne.symm hname), enter_of_name t' p hdot (Ne.symm hname)]
      split
      next => exact .inl rfl
      next =>
        -- the first name that led nowhere decides, for nothing was below it
        have hfree := hX _ (Path.prefix_descendAll hrest (p ++ [name]))
        cases hf : t.find? (p ++ [name]) with
        | none =>
          rcases h.made _ hfree hf with hnone | ⟨hdir, -⟩
          · rw [hnone]
            exact .inl rfl
          · rw [hdir]
            exact .inr ⟨rfl, closed.find?_below hf (Path.prefix_descendAll hrest _),
              (h.enterAll_missing closed hrest hf hX).cons name⟩
        | some e =>
          rw [(h.retains.same (hf ▸ Option.some_ne_none e) hfree).find, hf]
          cases e with
          | directory =>
            exact (ih hrest hX).imp_right fun hlost => ⟨hlost.1, hlost.2.1, hlost.2.2.cons name⟩
          | file n => exact .inl rfl
          | fullDevice => exact .inl rfl

/-- A straight path leads where it led, unless it led nowhere and something was added on its way. -/
theorem walk_cases (h : Grows X D t t') (closed : t.Closed) {path : String}
    (hs : t.Straight path) (hX : ∀ q, q <+: Path.place path → ¬ X q) :
    t'.walk path = t.walk path ∨
      t.walk path = .error .notFound ∧ t.find? (Path.place path) = none ∧
        Lost (Path.names path) (t'.walk path) := by
  obtain ⟨front, back, p, hnames, hfront, hback⟩ := hs
  -- the front of the path is entered in both trees, so that only its back can differ
  have hwalk : ∀ {t : FileTree}, front.foldlM t.enter (Path.origin path) = .ok p →
      t.walk path = back.foldlM t.enter p := fun hf => by
    rw [walk, hnames, List.foldlM_append, hf]
    rfl
  have hplace : back.foldl Path.descend p = Path.place path := by
    rw [Path.place, hnames, List.foldl_append, enterAll_eq hfront]
  rw [hwalk hfront, hwalk (ChangesOnly.enterAll h.retains hfront)]
  have hcases := h.enterAll_cases closed hback (p := p) (by rwa [hplace])
  rw [hplace] at hcases
  refine hcases.imp_right fun hlost => ⟨hlost.1, hlost.2.1, hlost.2.2.mono ?_⟩
  rw [hnames]
  exact List.subset_append_right front back

/-- Reading a file comes to what it came to before, unless its directory was missing and some on the
way to it was added: then one of its names can turn out to be too long. -/
theorem read_cases (h : Grows X D t t') (closed : t.Closed) {base name : String}
    (hs : t.Straight base) (hn : Path.isPlainName name = true)
    (hX : ∀ q, q <+: Path.place (Path.join base name) → ¬ X q)
    (hdir : ¬ D (Path.place (Path.join base name))) :
    t'.read (Path.join base name) = t.read (Path.join base name) ∨
      t.walk base = .error .notFound ∧ t.read (Path.join base name) = .error .notFound ∧
        t'.read (Path.join base name) = .error .nameTooLong ∧
        ∃ n ∈ Path.names (Path.join base name), maxName < n.utf8ByteSize := by
  rw [Path.place_join base hn] at hX hdir
  -- where nothing stood at the place itself, nothing stands there now
  have hkept : t.find? (Path.place base ++ [name]) = none →
      t'.find? (Path.place base ++ [name]) = none := fun hnone =>
    (h.made _ (hX _ (List.prefix_refl _)) hnone).resolve_right fun hmade => hdir hmade.2
  have hcases := h.walk_cases closed hs fun q hq => hX q (hq.trans (List.prefix_append _ _))
  obtain ⟨f, -, hunfit⟩ | hresolve := resolve_join_cases base hn
  · exact .inl ((read_of_error (hunfit t')).trans (read_of_error (hunfit t)).symm)
  obtain hsame | ⟨hmissing, hnone, hlost⟩ := hcases
  · left
    refine read_congr (by rw [hresolve, hresolve, hsame]) fun target hr => ?_
    obtain ⟨-, rfl⟩ := reaches_of_resolve_join hn hr
    cases hf : t.find? (Path.place base ++ [name]) with
    | none => exact ⟨by rw [hkept hf, hf], fun n hn => by cases hf.symm.trans hn⟩
    | some e => exact h.retains.same (by rw [hf]; exact nofun) (hX _ (List.prefix_refl _))
  · have hold := hresolve t
    have hnew := hresolve t'
    rw [hmissing] at hold
    have hread := read_of_error hold
    obtain ⟨q, hq⟩ | hw | ⟨hw, n, hmem, hlong⟩ := hlost
    · obtain rfl : q = Path.place base := enterAll_eq hq
      simp only [hq] at hnew
      split at hnew
      next hlong =>
        refine .inr ⟨hmissing, hread, read_of_error hnew, name, ?_, hlong⟩
        rw [Path.names_join base hn]
        exact List.mem_append_right _ (List.mem_singleton_self name)
      next =>
        have hnone' := hkept (closed.find?_below hnone (List.prefix_append _ _))
        exact .inl (by rw [hread, read_of_resolve hnew, hnone'])
    · rw [hw] at hnew
      exact .inl ((read_of_error hnew).trans hread.symm)
    · rw [hw] at hnew
      refine .inr ⟨hmissing, hread, read_of_error hnew, n, ?_, hlong⟩
      rw [Path.names_join base hn]
      exact List.mem_append_left _ hmem

/-- Where something lies at a place that is not left out, either it lay there before or it is a
directory that was made. -/
theorem lay_cases (h : Grows X D t t') {p : Place} (hX : ¬ X p) {e : Entry}
    (hp : t'.find? p = some e) : Same t t' p ∨ t.find? p = none ∧ e = .directory := by
  cases hf : t.find? p with
  | none =>
    rcases h.made p hX hf with hnone | ⟨hdir, -⟩
    · cases hp.symm.trans hnone
    · exact .inr ⟨rfl, Option.some.inj (hp.symm.trans hdir)⟩
  | some _ => exact .inl (h.retains.same (hf ▸ Option.some_ne_none _) hX)

/-- A path that leads somewhere now is read as what lies at its place: a file that lay there before,
or nothing, or what cannot be read. -/
theorem read_lies (h : Grows X D t t') {path : String} {target : Target}
    (hr : t'.resolve path = .ok target) (hs : target.slash = false)
    (hX : ¬ X (Path.place path)) :
    t'.read path = .error .notFound ∨
      (∃ n, t.find? (Path.place path) = some (.file n) ∧ t'.read path = .ok (t.content n)) ∨
      ∃ e f, t'.find? (Path.place path) = some e ∧ (∀ n, e ≠ .file n) ∧ f ≠ .notFound ∧
        t'.read path = .error f := by
  have hread := read_of_resolve hr
  rw [resolve_place hr, hs] at hread
  cases hf : t'.find? (Path.place path) with
  | none => exact .inl (by rw [hread, hf])
  | some e =>
    rw [hf] at hread
    cases e with
    | directory => exact .inr (.inr ⟨_, .isADirectory, rfl, nofun, nofun, hread⟩)
    | fullDevice => exact .inr (.inr ⟨_, .endless, rfl, nofun, nofun, hread⟩)
    | file n =>
      -- a file was not added, so that it lay there before
      obtain hsame | ⟨-, hdir⟩ := h.lay_cases hX hf
      · have hlay := hsame.find.symm.trans hf
        exact .inr (.inl ⟨n, hlay, hread.trans (congrArg Except.ok (hsame.content n hlay))⟩)
      · cases hdir

end Grows

end FileTree

end Deployment
