import PhpScaffold.Model.Edit
import PhpScaffold.Proofs.Except
import PhpScaffold.Proofs.Roster

namespace PhpScaffold

namespace Act

variable {σ τ α β : Type} {x : Act σ α} {y : Except Fault α} {k : α → Act σ β} {s s' : σ} {a : α} {b : β}

theorem bind_eq_ok : (x >>= k) s = .ok b s' ↔ ∃ a t, x s = .ok a t ∧ k a t = .ok b s' := by
  show EStateM.bind x k s = _ ↔ _
  unfold EStateM.bind
  cases x s <;> simp

theorem ofExcept_bind_eq_ok : ((ofExcept y : Act σ α) >>= k) s = .ok b s' ↔ ∃ a, y = .ok a ∧ k a s = .ok b s' := by
  rw [bind_eq_ok]
  cases y <;> simp [ofExcept]

theorem ofExcept_bind_error {f : Fault} (h : y = .error f) : ((ofExcept y : Act σ α) >>= k) s = .error f s := by
  rw [h]
  rfl

theorem ofExcept_bind_ok (h : y = .ok a) : ((ofExcept y : Act σ α) >>= k) s = k a s := by
  rw [h]
  rfl

theorem get_bind {k : σ → Act σ β} : ((get : Act σ σ) >>= k) s = k s s := rfl

theorem bind_error {f : Fault} (h : x s = .error f s') : (x >>= k) s = .error f s' := by
  show EStateM.bind x k s = _
  rw [EStateM.bind, h]

theorem on_eq_ok {put : σ → τ} {t : τ} : x.on put s = .ok a t ↔ ∃ s', x s = .ok a s' ∧ t = put s' := by
  unfold on
  cases x s <;> simp [eq_comm]

theorem on_eq_error {put : σ → τ} {f : Fault} {t : τ} :
    x.on put s = .error f t ↔ ∃ s', x s = .error f s' ∧ t = put s' := by
  unfold on
  cases x s <;> simp [eq_comm]

/-- Whether nothing is changed before all that can fail has gone well. -/
def FailsFirst (x : Act σ α) : Prop := ∀ s f s', x s = .error f s' → s' = s

namespace FailsFirst

theorem change (f : σ → σ) : (change f).FailsFirst := fun _ _ _ h => nomatch h

theorem answer (f : σ → Reply) : (answer f).FailsFirst := fun _ _ _ h => nomatch h

theorem pure (a : α) : (Pure.pure a : Act σ α).FailsFirst := fun _ _ _ h => nomatch h

theorem throw (f : Fault) : (MonadExcept.throw f : Act σ α).FailsFirst := by
  rintro s g s' h
  cases h
  rfl

theorem modify (f : σ → σ) (a : α) : (do modify f; return a : Act σ α).FailsFirst := fun _ _ _ h => nomatch h

theorem read (y : Except Fault α) (h : ∀ a, (k a).FailsFirst) : ((ofExcept y : Act σ α) >>= k).FailsFirst := by
  intro s f s' failed
  cases y with
  | error g =>
    cases failed
    rfl
  | ok a => exact h a s f s' failed

theorem get {k : σ → Act σ β} (h : ∀ s, (k s).FailsFirst) : (get >>= k).FailsFirst := fun s f s' => h s s f s'

theorem bind (h : x.FailsFirst) (sure : ∀ a s, ∃ b s', k a s = .ok b s') : (x >>= k).FailsFirst := by
  intro s f s' failed
  cases ran : x s with
  | ok a t =>
    obtain ⟨b, t', ended⟩ := sure a t
    rw [bind_eq_ok.2 ⟨a, t, ran, ended⟩] at failed
    cases failed
  | error g t =>
    rw [bind_error ran] at failed
    cases failed
    exact h s f s' ran

theorem within {get : σ → τ} {put : σ → τ → σ} {x : Act τ α} (same : ∀ s, put s (get s) = s) (h : x.FailsFirst) :
    (x.within get put).FailsFirst := by
  intro s f s' failed
  obtain ⟨t, broken, rfl⟩ := on_eq_error.1 failed
  rw [h _ _ _ broken, same]

end FailsFirst

end Act

open Act (FailsFirst)

variable {word : String} {call : Call}

theorem Annotations.failsFirst_perform? {act : Act Annotations Reply} (h : perform? call = some act) :
    act.FailsFirst := by
  cases call <;> cases h
  case addAttribute => exact .read _ fun _ => .change _
  all_goals exact .change _

theorem Parameter.failsFirst_performPromoted {q : Promotion} : (performPromoted word q call).FailsFirst := by
  cases call
  case setVisibility => exact .read _ fun _ => .change _
  case markVisibility | setReadonly => exact .change _
  all_goals exact .get fun _ => .throw _

theorem Parameter.failsFirst_perform : (perform word call).FailsFirst := by
  unfold perform
  split
  · exact .within (fun _ => rfl) (Annotations.failsFirst_perform? ‹_›)
  · cases call
    case setType | setNullable | setVariadic | setByReference | setDefault => exact .change _
    all_goals
      refine .get fun p => ?_
      split
      · exact failsFirst_performPromoted
      · exact .get fun _ => .throw _

theorem Method.failsFirst_addParameter (p : Parameter) : (addParameter p).FailsFirst :=
  .read _ fun _ => .modify _ _

theorem Method.failsFirst_perform : (perform word call).FailsFirst := by
  unfold perform
  split
  · exact .within (fun _ => rfl) (Annotations.failsFirst_perform? ‹_›)
  · cases call
    case addParameter | addPromoted => exact failsFirst_addParameter _
    case parameters => exact .answer _
    case setVisibility => exact .read _ fun _ => .change _
    all_goals first | exact .change _ | exact .throw _

theorem Property.failsFirst_perform : (perform word call).FailsFirst := by
  unfold perform
  split
  · exact .within (fun _ => rfl) (Annotations.failsFirst_perform? ‹_›)
  · cases call
    case setVisibility => exact .read _ fun _ => .change _
    all_goals first | exact .change _ | exact .throw _

theorem Constant.failsFirst_perform : (perform word call).FailsFirst := by
  unfold perform
  split
  · exact .within (fun _ => rfl) (Annotations.failsFirst_perform? ‹_›)
  · cases call
    case setVisibility => exact .read _ fun _ => .change _
    all_goals first | exact .change _ | exact .throw _

theorem EnumCase.failsFirst_perform : (perform word call).FailsFirst := by
  unfold perform
  split
  · exact .within (fun _ => rfl) (Annotations.failsFirst_perform? ‹_›)
  · exact .throw _

theorem Form.failsFirst_perform? {form : Form} {act : Act Form Reply} (h : form.perform? call = some act) :
    act.FailsFirst := by
  unfold Form.perform? at h
  split at h <;> cases h
  all_goals first | exact .change _ | exact .read _ fun _ => .change _

theorem Element.failsFirst_performOnParts : (performOnParts word call).FailsFirst := by
  refine .get fun e => ?_
  cases call
  case addMethod | addConstant => exact .read _ fun _ => .modify _ _
  case addProperty | addCase => exact .read _ fun _ => .read _ fun _ => .modify _ _
  case setProperties properties =>
    refine .read _ fun _ => ?_
    split
    · exact .read _ fun _ => .modify _ _
    · exact .throw _
  case method | hasMethod | cases => exact .read _ fun _ => .pure _
  case property => exact .read _ fun _ => .read _ fun _ => .pure _
  all_goals first | exact .pure _ | exact .throw _

theorem Element.failsFirst_perform : (perform word call).FailsFirst := by
  refine .get fun e => ?_
  split
  · exact .within (fun _ => rfl) (Annotations.failsFirst_perform? ‹_›)
  · exact .within (fun _ => rfl) (Form.failsFirst_perform? ‹_›)
  · exact failsFirst_performOnParts

theorem Namespace.failsFirst_perform : (perform word call).FailsFirst := by
  cases call
  case addUse => exact .get fun _ => .read _ fun _ => .change _
  case addElement => exact .read _ fun _ => .read _ fun _ => .modify _ _
  all_goals first | exact .answer _ | exact .throw _

theorem SourceFile.failsFirst_perform : (perform word call).FailsFirst := by
  cases call
  case addNamespace => exact .read _ fun _ _ _ _ h => nomatch h
  case primaryElement =>
    refine .get fun f => .read _ fun _ => ?_
    split <;> exact .pure _
  all_goals first | exact .change _ | exact .answer _ | exact .throw _

namespace Node

theorem failsFirst_perform : (perform word call).FailsFirst := by
  intro n f n' failed
  cases n
  all_goals
    obtain ⟨s, broken, rfl⟩ := Act.on_eq_error.1 failed
    refine congrArg _ ?_
    first
    | exact SourceFile.failsFirst_perform _ _ _ broken
    | exact Namespace.failsFirst_perform _ _ _ broken
    | exact Element.failsFirst_perform _ _ _ broken
    | exact Method.failsFirst_perform _ _ _ broken
    | exact Property.failsFirst_perform _ _ _ broken
    | exact Constant.failsFirst_perform _ _ _ broken
    | exact EnumCase.failsFirst_perform _ _ _ broken
    | exact Parameter.failsFirst_perform _ _ _ broken

theorem failsFirst_ask {arguments : List Value} : (ask word arguments).FailsFirst :=
  .get fun _ => .read _ fun _ => failsFirst_perform

theorem ask_of_read {n : Node} {arguments : List Value} (h : n.read word arguments = .ok call) :
    ask word arguments n = perform word call n :=
  Act.ofExcept_bind_ok h

theorem ask_of_unread {n : Node} {arguments : List Value} {f : Fault} (h : n.read word arguments = .error f) :
    ask word arguments n = .error f n :=
  Act.ofExcept_bind_error h

theorem step_eq_ok {n : Node} {st : Step} {done : Result} :
    n.step st = .ok done ↔ edit st.word st.arguments st.path n = .ok (done.target, done.reply) done.root := by
  unfold step
  constructor <;> intro h
  · split at h
    · cases h
      assumption
    · cases h
  · rw [h]

end Node

end PhpScaffold
