import Deployment.Archive
import Deployment.Proofs.Descriptor.Node

/-! # Descriptors are read back

Every part of a descriptor is read back from what it is written to, and so is the whole. A text
may be written one level deeper than it was read, since lists that were left out are written, so
the bound on the levels is one on the text that is written.

* **`ApplicationSpec.faithful`** — every descriptor is read back from its text.
* **`ApplicationSpec.ofArchive_of_spells`** — a descriptor is read back from an archive.
* **`ApplicationSpec.descriptor_round_trips`** — descriptors and their parts are read back from
  both of their texts. -/

namespace Deployment

open Json (Form Field)

/-! ## Parts -/

/-- A kind of programs is read as it is written. -/
theorem ProgramKind.faithful (k : ProgramKind) : layout.Faithful k := by
  refine Form.faithful_choice ?_ ?_ <;> cases k <;> decide

/-- Properties are read as they are written. -/
theorem Properties.faithful (p : Properties) : layout.Faithful p :=
  Form.faithful_table fun e _ => Form.faithful_text e.2

/-- A program is read as it is written. -/
theorem ProgramSpec.faithful (p : ProgramSpec) : layout.Faithful p := by
  refine Form.faithful_record
    (.cons (Field.faithful_of (Form.faithful_text p.name))
      (.cons (Field.faithful_of (ProgramKind.faithful p.kind))
        (.cons (Field.faithful_of (Form.faithful_text p.description))
          (.cons (Field.faithful_optional fun s _ => ⟨Form.faithful_text s, nofun⟩)
            (.cons (Field.faithful_of (Properties.faithful p.properties)) .nil)))))
    (by decide) ?_
  obtain ⟨name, kind, description, mainClass, properties⟩ := p
  cases mainClass <;> rfl

/-- A workflow is read as it is written. -/
theorem WorkflowSpec.faithful (w : WorkflowSpec) : layout.Faithful w :=
  Form.faithful_record
    (.cons (Field.faithful_of (Form.faithful_text w.name))
      (.cons (Field.faithful_of (Form.faithful_text w.description))
        (.cons (Field.faithful_of (Form.faithful_list fun n _ => n.faithful))
          (.cons (Field.faithful_of (Properties.faithful w.properties)) .nil))))
    (by decide) rfl

/-- A dataset is read as it is written. -/
theorem DatasetSpec.faithful (d : DatasetSpec) : layout.Faithful d :=
  Form.faithful_record
    (.cons (Field.faithful_of (Form.faithful_text d.name))
      (.cons (Field.faithful_of (Form.faithful_text d.kind))
        (.cons (Field.faithful_of (Properties.faithful d.properties)) .nil)))
    (by decide) rfl

/-- A schedule is read as it is written. -/
theorem ScheduleSpec.faithful (s : ScheduleSpec) : layout.Faithful s :=
  Form.faithful_record
    (.cons (Field.faithful_of (Form.faithful_text s.name))
      (.cons (Field.faithful_of (Form.faithful_text s.description))
        (.cons (Field.faithful_of (Form.faithful_text s.program))
          (.cons (Field.faithful_of (Properties.faithful s.properties)) .nil))))
    (by decide) rfl

namespace ApplicationSpec

/-- Every descriptor is read back from its text. -/
theorem faithful (a : ApplicationSpec) : layout.Faithful a :=
  Form.faithful_record
    (.cons (Field.faithful_of (Form.faithful_text a.name))
      (.cons (Field.faithful_of (Form.faithful_text a.version))
        (.cons (Field.faithful_of (Form.faithful_text a.description))
          (.cons (Field.faithful_of (Form.faithful_table fun e _ => e.2.faithful))
            (.cons (Field.faithful_of (Form.faithful_table fun e _ => e.2.faithful))
              (.cons (Field.faithful_of (Form.faithful_table fun e _ => e.2.faithful))
                (.cons (Field.faithful_of (Form.faithful_table fun e _ => e.2.faithful))
                  (.cons (Field.faithful_of (Form.faithful_table fun e _ => e.2.faithful))
                    .nil))))))))
    (by decide) rfl

/-! ## Archives -/

/-- A descriptor is read back from every archive that spells it, unless the name of the archive
says that it is a YAML document. -/
theorem ofArchive_of_spells {a : ApplicationSpec} {path : String} {bytes : List UInt8}
    (hpath : ArchiveFormat.ofPath path = .json) (hdepth : (layout.write a).depth < 128)
    (hs : Json.Spells (layout.write a) bytes) : ofArchive path bytes = .ok a := by
  have hread : layout.parse bytes = .ok a :=
    Form.parse_of_spells a.faithful (Nat.le_of_lt_succ hdepth) hs
  have hfull : bytes.all isArchiveBlank = false := by
    have hwrite : layout.write a = .object _ := rfl
    rw [hwrite] at hs
    cases hs
    rfl
  rw [ofArchive, hfull, hpath]
  simp only [Bool.false_eq_true, if_false, ofJson, hread]

/-- An archive is a JSON text if its extension is none of YAML. -/
theorem ofPath_of_extension {path : String} (h : ∀ e ∈ Path.extension? path,
    e.map Char.toLower ≠ "yaml" ∧ e.map Char.toLower ≠ "yml") :
    ArchiveFormat.ofPath path = .json := by
  cases he : Path.extension? path with
  | none => rw [ArchiveFormat.ofPath, he]
  | some e =>
    have hnot := h e he
    simp only [ArchiveFormat.ofPath, he, ArchiveFormat.yamlExtensions, List.contains_cons,
      List.contains_nil, beq_eq_false_iff_ne.2 hnot.1, beq_eq_false_iff_ne.2 hnot.2,
      Bool.or_false, Bool.false_eq_true, if_false]

/-- Every descriptor that is nested less than 128 levels deep is read back from its texts, in an
archive of any name that is none of YAML, and so are its parts. What was read from some archive
is read again from the texts that it is written to. -/
theorem descriptor_round_trips :
    (∀ (a : ApplicationSpec) (path : String),
      (∀ e ∈ Path.extension? path,
        e.map Char.toLower ≠ "yaml" ∧ e.map Char.toLower ≠ "yml") →
      (layout.write a).depth < 128 →
        ofArchive path (Utf8.encode (layout.compact a)) = .ok a ∧
        ofArchive path (Utf8.encode (layout.pretty a)) = .ok a ∧
        ∀ source bytes, ofArchive source bytes = .ok a →
          ofArchive path (Utf8.encode (layout.compact a)) = ofArchive source bytes ∧
          ofArchive path (Utf8.encode (layout.pretty a)) = ofArchive source bytes) ∧
    layout.RoundTrips ∧ ProgramSpec.layout.RoundTrips ∧ WorkflowSpec.layout.RoundTrips ∧
    WorkflowNode.layout.RoundTrips ∧ DatasetSpec.layout.RoundTrips ∧
    ScheduleSpec.layout.RoundTrips := by
  refine ⟨fun a path hpath hdepth => ?_, Form.roundTrips_of_faithful faithful,
    Form.roundTrips_of_faithful ProgramSpec.faithful,
    Form.roundTrips_of_faithful WorkflowSpec.faithful,
    Form.roundTrips_of_faithful WorkflowNode.faithful,
    Form.roundTrips_of_faithful DatasetSpec.faithful,
    Form.roundTrips_of_faithful ScheduleSpec.faithful⟩
  -- Both texts spell the same value, which is all that the reader goes by.
  have hcompact := ofArchive_of_spells (ofPath_of_extension hpath) hdepth
    (Json.spells_compact (layout.write a))
  have hpretty := ofArchive_of_spells (ofPath_of_extension hpath) hdepth
    (Json.spells_pretty (layout.write a))
  refine ⟨hcompact, hpretty, fun source bytes hread => ?_⟩
  exact ⟨hcompact.trans hread.symm, hpretty.trans hread.symm⟩

/-- A condition over a fork without a name is read back from both texts. -/
theorem branching_workflow_round_trips :
    let check := .condition "check" (some "ready")
      [.fork none [[.action "clean" ⟨.spark, "clean"⟩], []]] []
    let a : ApplicationSpec :=
      { name := "orders", workflows := .ofList [("daily", { name := "daily", nodes := [check] })] }
    (layout.write a).depth = 11 ∧
      ofArchive "orders.json" (Utf8.encode (layout.compact a)) = .ok a ∧
      ofArchive "orders.json" (Utf8.encode (layout.pretty a)) = .ok a := by
  intro check a
  have hdepth : (layout.write a).depth = 11 := by decide
  have hextension : Path.extension? "orders.json" = some "json" := by decide
  have hpath : ∀ e ∈ Path.extension? "orders.json",
      e.map Char.toLower ≠ "yaml" ∧ e.map Char.toLower ≠ "yml" := by
    intro e he
    obtain rfl := Option.some.inj (hextension.symm.trans he)
    constructor <;>
    · intro h
      have hletters := congrArg String.toList h
      rw [String.toList_map] at hletters
      exact absurd hletters (by decide)
  obtain ⟨hcompact, hpretty, -⟩ :=
    descriptor_round_trips.1 a "orders.json" hpath (by rw [hdepth]; decide)
  exact ⟨hdepth, hcompact, hpretty⟩

end ApplicationSpec

end Deployment
