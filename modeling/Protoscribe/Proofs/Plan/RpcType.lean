import Protoscribe.Proofs.Plan.Outcome
import Protoscribe.Proofs.Proto.Identifier

/-!
The types of requests and responses. A reference stands for the message that it names,
or else for the one named like its model. Its text is there exactly if this name is in
the grammar of dotted names, and it shows both the name and whether it is streamed: no
dotted name has a blank, so the mark of a stream cannot be taken for a part of the name.
-/

namespace Protoscribe

/-- The name of the message that a reference of a model stands for. -/
def MessageRef.target (ref : MessageRef) (model : Model) : String :=
  ref.message.getD model.name

def rpcText (streamed : Bool) (target : String) : String :=
  if streamed then "stream " ++ target else target

namespace Plan

/-- A reference has a type exactly if its target is made of dotted identifiers. -/
theorem rpcType_eq_ok_iff_dotted {model : Model} {ref : MessageRef} {text : String} :
    ref.rpcType model = .ok text ↔
      Proto.Dotted (ref.target model) ∧ text = rpcText ref.streamed (ref.target model) := by
  rw [rpcType_eq_ok_iff, Proto.isQualified_iff_dotted]
  cases hstreamed : ref.streamed <;> simp [MessageRef.target, rpcText]

/-- The only fault of a reference is its name. -/
theorem rpcType_eq_error_iff {model : Model} {ref : MessageRef} {fault : Error} :
    ref.rpcType model = .error fault ↔
      ¬ Proto.Dotted (ref.target model) ∧
        fault = .invalidIdentifier "message reference" (ref.target model) := by
  rw [(reports_rpcType model ref).error_iff, referenceFaults, ← Proto.isQualified_iff_dotted]
  by_cases h : Proto.isQualified (ref.message.getD model.name) = true
  · simp [MessageRef.target, h]
  · simp [MessageRef.target, h, eq_comm]

theorem blank_not_mem_of_dotted {target : String} (h : Proto.Dotted target) :
    ' ' ∉ target.toList :=
  Proto.not_mem_of_isQualified (Proto.isQualified_iff_dotted.mpr h) rfl (by decide)

/-- A blank in the text tells a stream. -/
theorem blank_mem_rpcText_iff {streamed : Bool} {target : String} (h : Proto.Dotted target) :
    ' ' ∈ (rpcText streamed target).toList ↔ streamed = true := by
  cases streamed with
  | false => simpa [rpcText] using blank_not_mem_of_dotted h
  | true => simp [rpcText]

/-- A blank tells a stream, and what stands behind the mark is the name. -/
theorem rpcText_inj {streamed other : Bool} {target name : String} (htarget : Proto.Dotted target)
    (hname : Proto.Dotted name) :
    rpcText streamed target = rpcText other name ↔ streamed = other ∧ target = name := by
  constructor
  · intro h
    have hblank : streamed = true ↔ other = true := by
      rw [← blank_mem_rpcText_iff htarget, h, blank_mem_rpcText_iff hname]
    obtain rfl : streamed = other := Bool.eq_iff_iff.mpr hblank
    refine ⟨rfl, ?_⟩
    cases streamed with
    | false => exact h
    | true => exact (String.append_right_inj "stream ").mp h
  · rintro ⟨rfl, rfl⟩
    rfl

/-- A reference has a text exactly if the name that it stands for is dotted, and this
name is reported otherwise. Two references have one text exactly if they stand for one
name and both or none of them is streamed. -/
theorem rpcType_unambiguous (ref : MessageRef) (model : Model) :
    (∀ text, ref.rpcType model = .ok text ↔
        Proto.Dotted (ref.target model) ∧ text = rpcText ref.streamed (ref.target model)) ∧
      (∀ fault, ref.rpcType model = .error fault ↔
        ¬ Proto.Dotted (ref.target model) ∧
          fault = .invalidIdentifier "message reference" (ref.target model)) ∧
      ∀ (other : MessageRef) (owner : Model) (text found : String),
        ref.rpcType model = .ok text → other.rpcType owner = .ok found →
          (text = found ↔
            ref.streamed = other.streamed ∧ ref.target model = other.target owner) := by
  refine ⟨fun _ => rpcType_eq_ok_iff_dotted, fun _ => rpcType_eq_error_iff, ?_⟩
  intro other owner text found htext hfound
  obtain ⟨htarget, rfl⟩ := rpcType_eq_ok_iff_dotted.mp htext
  obtain ⟨hname, rfl⟩ := rpcType_eq_ok_iff_dotted.mp hfound
  exact rpcText_inj htarget hname

/-- The word of the mark may be a name, or a part of one. -/
theorem rpcType_unambiguous_stream :
    MessageRef.rpcType {} { name := "a.stream" } = .ok "a.stream" ∧
      (MessageRef.stream "a.stream").rpcType { name := "stream" } = .ok "stream a.stream" ∧
      (MessageRef.stream "stream").rpcType { name := "a" } = .ok "stream stream" ∧
      "a.stream" ≠ "stream a.stream" ∧ "stream a.stream" ≠ "stream stream" := by
  obtain ⟨-, -, hplain⟩ := rpcType_unambiguous {} { name := "a.stream" }
  obtain ⟨-, -, hstreamed⟩ := rpcType_unambiguous (.stream "a.stream") { name := "stream" }
  have hmark := hplain (.stream "a.stream") { name := "stream" } _ _ rfl rfl
  have hname := hstreamed (.stream "stream") { name := "a" } _ _ rfl rfl
  refine ⟨rfl, rfl, rfl, ?_, ?_⟩
  · intro hsame
    cases (hmark.mp hsame).1
  · intro hsame
    have htarget : "a.stream" = "stream" := (hname.mp hsame).2
    revert htarget
    decide

end Plan

end Protoscribe
