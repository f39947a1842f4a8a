import Deployment.Data.Stateful
import Deployment.Json.Skip
import Deployment.Json.Number
import Deployment.Proofs.Json.Spelling

/-! # What readers read

What a reader reads does not depend on the place that it counts along the way, so the place is
left out of what is said of readers here.

* **`Reader.Gives`** — what a reader reads from the front of an input, and what it leaves.
* **`Reader.Ends`** — what may stand behind a value.
* **`Reader.Finds`** — a reader finds a value where its document is spelled. -/

namespace Deployment.Json

open Utf8

namespace Reader

variable {α β σ : Type} {input middle rest : List UInt8} {a : α} {b : UInt8}

/-! ## Steps -/

/-- From the front of the input the reader reads a value, and it leaves the rest. -/
def Gives (r : Reader α) (input : List UInt8) (a : α) (rest : List UInt8) : Prop :=
  ∀ p, ∃ p', r ⟨input, p⟩ = .ok a ⟨rest, p'⟩

/-- A value that is given takes nothing of the input. -/
theorem Gives.pure (a : α) (input : List UInt8) : Gives (pure a) input a input :=
  fun p => ⟨p, rfl⟩

/-- A reader goes on where the first one has stopped. -/
theorem Gives.bind {r : Reader α} {f : α → Reader β} {b : β} (h : Gives r input a middle)
    (h' : Gives (f a) middle b rest) : Gives (r >>= f) input b rest := by
  intro p
  obtain ⟨p₁, h₁⟩ := h p
  obtain ⟨p₂, h₂⟩ := h' p₁
  refine ⟨p₂, ?_⟩
  simp only [Stateful.run_bind, h₁, h₂]

/-- A reader gives what is made of what it read. -/
theorem Gives.map {r : Reader α} (f : α → β) (h : Gives r input a rest) :
    Gives (f <$> r) input (f a) rest := by
  intro p
  obtain ⟨p', h'⟩ := h p
  refine ⟨p', ?_⟩
  simp only [Functor.map, EStateM.map, h']

/-- A fault would be located; what is read is as it is. -/
theorem Gives.located {r : Reader α} (h : Gives r input a rest) :
    Gives (located r) input a rest := by
  intro p
  obtain ⟨p', h'⟩ := h p
  exact ⟨p', by simp only [Reader.located, h']⟩

/-- What is closed is read, and then its end. -/
theorem Gives.closedBy {r : Reader α} {close : Reader Unit} (h : Gives r input a middle)
    (h' : Gives close middle () rest) : Gives (closedBy r close) input a rest := by
  intro p
  obtain ⟨p₁, h₁⟩ := h p
  obtain ⟨p₂, h₂⟩ := h' p₁
  exact ⟨p₂, by simp only [Reader.closedBy, h₁, h₂]⟩

/-- A byte is taken. -/
theorem gives_skip : Gives skip (b :: rest) () rest := fun p => ⟨p.advance b, rfl⟩

/-- The next byte is seen, and not taken. -/
theorem gives_peek : Gives peek (b :: rest) (some b) (b :: rest) := fun p => ⟨p, rfl⟩

/-- What remains is counted, and not taken. -/
theorem gives_remaining : Gives remaining input input.length input := fun p => ⟨p, rfl⟩

/-- What was judged to be fine is given. -/
theorem gives_ofExcept {x : Except Mismatch α} (h : x = .ok a) :
    Gives (ofExcept x) input a input := by
  subst h
  exact fun p => ⟨p, rfl⟩

/-- Blanks are passed over. -/
theorem passBlanks_append {blanks : List UInt8} (h : Blanks blanks) (rest : List UInt8)
    (p : Position) : ∃ p', passBlanks (blanks ++ rest) p = passBlanks rest p' := by
  induction blanks generalizing p with
  | nil => exact ⟨p, rfl⟩
  | cons b blanks ih =>
    obtain ⟨p', hp'⟩ := ih (fun c hc => h c (List.mem_cons_of_mem b hc)) (p.advance b)
    exact ⟨p', by rw [List.cons_append, passBlanks, h b (List.mem_cons_self ..), if_pos rfl, hp']⟩

/-- The first byte behind blanks is seen. -/
theorem gives_peekToken {blanks : List UInt8} (h : Blanks blanks) (hb : isBlank b = false) :
    Gives peekToken (blanks ++ b :: rest) (some b) (b :: rest) := by
  intro p
  obtain ⟨p', hp'⟩ := passBlanks_append h (b :: rest) p
  refine ⟨p', ?_⟩
  simp only [peekToken, hp', passBlanks, hb, Bool.false_eq_true, if_false, List.head?_cons]

/-! ## What may stand behind a value -/

/-- The text ends, or a blank, a comma or a closing bracket follows. -/
def Ends (rest : List UInt8) : Prop :=
  ∀ b, rest.head? = some b → isBlank b = true ∨ b = 0x2C ∨ b = 0x5D ∨ b = 0x7D

/-- A number ends with the input. -/
theorem Ends.nil : Ends [] := nofun

/-- A number ends before a comma. -/
theorem Ends.comma (rest : List UInt8) : Ends (0x2C :: rest) := by
  rintro b ⟨⟩
  exact .inr (.inl rfl)

/-- A number ends before a closing brace. -/
theorem Ends.brace (rest : List UInt8) : Ends (0x7D :: rest) := by
  rintro b ⟨⟩
  exact .inr (.inr (.inr rfl))

/-- A number ends before blanks, if it would end behind them. -/
theorem Ends.blanks {blanks : List UInt8} (h : Blanks blanks) (hr : Ends rest) :
    Ends (blanks ++ rest) := by
  cases blanks with
  | nil => exact hr
  | cons b blanks =>
    rintro c ⟨⟩
    exact .inl (h b (List.mem_cons_self ..))

/-- What stands before an item or a member that is not the first may stand behind a value. -/
theorem Ends.separated {before : List UInt8} (h : Separates false before) (rest : List UInt8) :
    Ends (before ++ rest) := by
  obtain ⟨blanks, behind, hblanks, -, rfl⟩ := h
  rw [List.append_assoc, List.cons_append]
  exact .blanks hblanks (.comma _)

/-- Behind a value the next member or the end of the object may stand. -/
theorem ends_members {members : List (String × Json)} {more : List UInt8}
    (h : SpellsMembers false members more) (rest : List UInt8) : Ends (more ++ rest) := by
  cases h with
  | nil blank =>
    rw [List.append_assoc]
    exact .blanks blank (.brace rest)
  | cons separates =>
    rw [List.append_assoc]
    exact .separated separates _

/-- The reader finds a value where its document is spelled. -/
def Finds (r : Reader α) (v : Json) (a : α) : Prop :=
  ∀ blanks bytes rest, Blanks blanks → Spells v bytes → Ends rest →
    Gives r (blanks ++ (bytes ++ rest)) a rest

/-- A reader finds what is made of what it finds. -/
theorem Finds.map {r : Reader α} {v : Json} (f : α → β) (h : r.Finds v a) :
    (f <$> r).Finds v (f a) :=
  fun blanks bytes rest hb hs he => (h blanks bytes rest hb hs he).map f

end Reader

end Deployment.Json
