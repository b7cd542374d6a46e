import Pipeline.Proofs.Layers

/-!
# The text of an error

An error is made of one cause and the layers around it in one way only
(`ExecutionError.MadeOf`).  Its root cause, its chain of names and its message are read off
these two: `ExecutionError.inside` gives one equation for each of the three, by induction
over the layers, and `inspection_agrees_with_message` puts them together.
-/

namespace Pipeline

/-- What a layer puts in front of a message. -/
def Layer.heading : Layer → String
  | .action name => "Action error: " ++ name ++ ": "
  | .executable name => "Executable error: " ++ name ++ ": "
  | .schema name step component =>
    name ++ ": Execution schema failed at step " ++ toString step ++ " (" ++ component ++ "): "
  | .evaluator name => name ++ ": "

namespace ExecutionError

/-- The error is a cause inside layers, outermost first. -/
structure MadeOf (error cause : ExecutionError) (trail : List Layer) : Prop where
  isCause : cause.IsCause
  eq_inside : error = cause.inside trail

variable {error cause : ExecutionError} {trail : List Layer}

/-! ## One layer -/

@[simp] theorem contextChain_wrap (layer : Layer) (inner : ExecutionError) :
    (layer.wrap inner).contextChain = layer.name :: inner.contextChain := by
  cases layer <;> rfl

/-- A layer writes its heading in front of the message inside. -/
@[simp] theorem message_wrap (layer : Layer) (inner : ExecutionError) :
    (layer.wrap inner).message = layer.heading ++ inner.message := by
  cases layer <;> rfl

/-! ## Many layers -/

@[simp] theorem rootCause_inside (inner : ExecutionError) (trail : List Layer) :
    (inner.inside trail).rootCause = inner.rootCause := by
  induction trail with
  | nil => rfl
  | cons layer trail ih => rw [inside_cons, rootCause_wrap, ih]

/-- The context of an error is the names of its layers, outermost first. -/
@[simp] theorem contextChain_inside (inner : ExecutionError) (trail : List Layer) :
    (inner.inside trail).contextChain = trail.map Layer.name ++ inner.contextChain := by
  induction trail with
  | nil => rfl
  | cons layer trail ih =>
    rw [inside_cons, contextChain_wrap, ih, List.map_cons, List.cons_append]

/-- Its message is their headings, and then the message inside. -/
@[simp] theorem message_inside (inner : ExecutionError) (trail : List Layer) :
    (inner.inside trail).message = String.join (trail.map Layer.heading) ++ inner.message := by
  induction trail with
  | nil => rw [inside_nil, List.map_nil, String.join_nil, String.empty_append]
  | cons layer trail ih =>
    calc (layer.wrap (inner.inside trail)).message
        = layer.heading ++ (String.join (trail.map Layer.heading) ++ inner.message) := by
          rw [message_wrap, ih]
      _ = String.join ((layer :: trail).map Layer.heading) ++ inner.message := by
          rw [List.map_cons, String.join_cons, String.append_assoc]

/-! ## Causes -/

/-- A cause is its own root cause. -/
theorem rootCause_of_isCause (h : cause.IsCause) : cause.rootCause = cause := by
  have hself : cause.rootCause.inside cause.layers = cause := rootCause_inside_layers cause
  rwa [layers_of_isCause h, inside_nil] at hself

theorem contextChain_of_isCause (h : cause.IsCause) : cause.contextChain = [] := by
  rw [contextChain_eq_layers, layers_of_isCause h, List.map_nil]

/-- The root cause is in no layer. -/
theorem isCause_rootCause (error : ExecutionError) : error.rootCause.IsCause := by
  induction error with
  | action _ _ ih | executable _ _ ih | schemaFailed _ _ _ _ ih | evaluator _ _ ih => exact ih
  | missingKey | invalidQuery | invalidInput | validation | memory | other => trivial

/-! ## What an error is made of -/

/-- Every error is made of its root cause and its layers. -/
theorem madeOf_layers (error : ExecutionError) : error.MadeOf error.rootCause error.layers where
  isCause := isCause_rootCause error
  eq_inside := (rootCause_inside_layers error).symm

namespace MadeOf

theorem rootCause_eq (h : error.MadeOf cause trail) : error.rootCause = cause := by
  rw [h.eq_inside, rootCause_inside, rootCause_of_isCause h.isCause]

theorem layers_eq (h : error.MadeOf cause trail) : error.layers = trail := by
  rw [h.eq_inside, layers_inside, layers_of_isCause h.isCause, List.append_nil]

theorem contextChain_eq (h : error.MadeOf cause trail) :
    error.contextChain = trail.map Layer.name := by
  rw [h.eq_inside, contextChain_inside, contextChain_of_isCause h.isCause, List.append_nil]

theorem message_eq (h : error.MadeOf cause trail) :
    error.message = String.join (trail.map Layer.heading) ++ cause.message := by
  rw [h.eq_inside, message_inside]

/-- The message of the cause stands at the end. -/
theorem message_suffix (h : error.MadeOf cause trail) :
    cause.message.toList <:+ error.message.toList := by
  rw [h.message_eq, String.toList_append]
  exact List.suffix_append _ _

end MadeOf

/-- An error is made of one cause and one row of layers: its root cause is that cause, its chain
names those layers, and its message is their headings followed by the message of the cause.
More layers around the error come in front of its chain and of its message. -/
theorem inspection_agrees_with_message (error : ExecutionError) :
    error.MadeOf error.rootCause error.layers ∧
    ∀ (cause : ExecutionError) (trail : List Layer), error.MadeOf cause trail →
      error.rootCause = cause ∧
      error.layers = trail ∧
      error.contextChain = trail.map Layer.name ∧
      error.contextChain.length = trail.length ∧
      error.message = String.join (trail.map Layer.heading) ++ error.rootCause.message ∧
      error.rootCause.message.toList <:+ error.message.toList ∧
      ∀ outer : List Layer,
        (error.inside outer).rootCause = error.rootCause ∧
        (error.inside outer).contextChain = outer.map Layer.name ++ error.contextChain ∧
        (error.inside outer).message =
          String.join (outer.map Layer.heading) ++ error.message := by
  refine ⟨madeOf_layers error, fun cause trail h => ?_⟩
  have hcause : error.rootCause = cause := h.rootCause_eq
  have hchain : error.contextChain = trail.map Layer.name := h.contextChain_eq
  refine ⟨hcause, h.layers_eq, hchain, ?_, hcause ▸ h.message_eq, hcause ▸ h.message_suffix,
    fun outer => ?_⟩
  · rw [hchain, List.length_map]
  · exact ⟨rootCause_inside error outer, contextChain_inside error outer,
      message_inside error outer⟩

/-- A missing key inside an action, which is a step of a schema in an evaluator. -/
def lostAttribute : ExecutionError :=
  .evaluator "Evaluator" (.schemaFailed "ExecutionSchema" 2 "Flush"
    (.action "Flush" (.missingKey "a")))

theorem lostAttribute_inspection_agrees :
    lostAttribute.MadeOf (.missingKey "a")
      [.evaluator "Evaluator", .schema "ExecutionSchema" 2 "Flush", .action "Flush"] ∧
    lostAttribute.rootCause = .missingKey "a" ∧
    lostAttribute.contextChain = ["Evaluator", "ExecutionSchema", "Flush"] ∧
    lostAttribute.message = "Evaluator: ExecutionSchema: Execution schema failed at step 2 " ++
      "(Flush): Action error: Flush: Attribute 'a' not found in input data" := by
  have hmade : lostAttribute.MadeOf (.missingKey "a")
      [.evaluator "Evaluator", .schema "ExecutionSchema" 2 "Flush", .action "Flush"] :=
    ⟨trivial, rfl⟩
  obtain ⟨hcause, -, hchain, -, htext, -⟩ :=
    (inspection_agrees_with_message lostAttribute).2 _ _ hmade
  refine ⟨hmade, hcause, hchain, htext.trans ?_⟩
  rw [hcause]
  decide +kernel

end ExecutionError

end Pipeline
