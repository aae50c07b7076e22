import PhpScaffold.Proofs.Model.Act
import PhpScaffold.Proofs.Blueprint.Assembly

namespace PhpScaffold

namespace Element

variable {e e' : Element} {word : String} {r : Reply}

variable (v : Value)

theorem method_rename {name : Value} {m : Method} (h : e.method name = .ok m) : (e.rename v).method name = .ok m := by
  unfold method at *
  obtain ⟨key, hk, found⟩ := Except.bind_eq_ok.1 h
  rw [hk, Except.ok_bind]
  split at found
  · rename_i m' there
    rw [show (e.rename v).methods = e.methods from rfl, there]
    exact found
  · cases found

theorem performOnParts_rename {call : Call} (h : performOnParts word call e = .ok r e') :
    performOnParts word call (e.rename v) = .ok r (e'.rename v) := by
  cases call with
  | methods | properties | parents | interfaces | traits =>
    cases h
    rfl
  | addMethod | hasMethod | addConstant | cases =>
    obtain ⟨a, read, made⟩ := Act.ofExcept_bind_eq_ok.1 h
    cases made
    exact Act.ofExcept_bind_eq_ok.2 ⟨a, read, rfl⟩
  | method name =>
    obtain ⟨m, found, made⟩ := Act.ofExcept_bind_eq_ok.1 h
    cases made
    exact Act.ofExcept_bind_eq_ok.2 ⟨m, method_rename v found, rfl⟩
  | addProperty | property | addCase =>
    obtain ⟨table, there, rest⟩ := Act.ofExcept_bind_eq_ok.1 h
    obtain ⟨a, read, made⟩ := Act.ofExcept_bind_eq_ok.1 rest
    cases made
    exact Act.ofExcept_bind_eq_ok.2 ⟨table, there, Act.ofExcept_bind_eq_ok.2 ⟨a, read, rfl⟩⟩
  | setProperties properties =>
    obtain ⟨table, there, rest⟩ := Act.ofExcept_bind_eq_ok.1 h
    refine Act.ofExcept_bind_eq_ok.2 ⟨table, there, ?_⟩
    cases items : properties.items? with
    | some vs =>
      simp only [items] at rest ⊢
      obtain ⟨a, read, made⟩ := Act.ofExcept_bind_eq_ok.1 rest
      cases made
      exact Act.ofExcept_bind_eq_ok.2 ⟨a, read, rfl⟩
    | none =>
      simp only [items] at rest
      cases rest
  | _ => cases h

theorem perform_rename {call : Call} (h : perform word call e = .ok r e') :
    perform word call (e.rename v) = .ok r (e'.rename v) := by
  obtain ⟨_, _, ⟨⟩, h⟩ := Act.bind_eq_ok.1 h
  refine Act.bind_eq_ok.2 ⟨e.rename v, e.rename v, rfl, ?_⟩
  simp only [show (e.rename v).form = e.form from rfl]
  cases own : Annotations.perform? call with
  | some notes =>
    simp only [own] at h ⊢
    obtain ⟨a, made, rfl⟩ := Act.on_eq_ok.1 h
    exact Act.on_eq_ok.2 ⟨a, made, rfl⟩
  | none =>
    cases known : e.form.perform? call with
    | some act =>
      simp only [own, known] at h ⊢
      obtain ⟨form, made, rfl⟩ := Act.on_eq_ok.1 h
      exact Act.on_eq_ok.2 ⟨form, made, rfl⟩
    | none =>
      simp only [own, known] at h ⊢
      exact performOnParts_rename v h

end Element

namespace Node

variable {e : Element} (v : Value) {h : Hop} {word : String} {arguments : List Value}

theorem child_rename {c : Node} (found : (element e).child h = .ok c) : (element (e.rename v)).child h = .ok c := by
  cases h with
  | method name =>
    obtain ⟨m, there, made⟩ := Except.bind_eq_ok.1 found
    exact Except.bind_eq_ok.2 ⟨m, Element.method_rename v there, made⟩
  | constant | property | enumCase => exact found
  | _ => cases found

theorem put_rename (d : Node) :
    ∃ e', (element e).put h d = element e' ∧ (element (e.rename v)).put h d = element (e'.rename v) := by
  cases h <;> cases d <;> try exact ⟨_, rfl, rfl⟩
  all_goals
    simp only [put]
    rw [show (e.rename v).form = e.form from rfl]
    split <;> exact ⟨_, rfl, rfl⟩

theorem edit_rename {hops : List Hop} {done : Node × Reply} {n : Node}
    (edited : edit word arguments hops (element e) = .ok done n) :
    ∃ e' again, n = element e' ∧ edit word arguments hops (element (e.rename v)) = .ok again (element (e'.rename v)) := by
  cases hops with
  | nil =>
    obtain ⟨reply, t, asked, made⟩ := Act.bind_eq_ok.1 edited
    obtain ⟨call, read, performed⟩ := Act.ofExcept_bind_eq_ok.1 asked
    obtain ⟨e', step, rfl⟩ := Act.on_eq_ok.1 performed
    cases made
    refine ⟨e', (element (e'.rename v), reply), rfl, ?_⟩
    refine Act.bind_eq_ok.2 ⟨reply, element (e'.rename v), ?_, rfl⟩
    exact Act.ofExcept_bind_eq_ok.2 ⟨call, read, Act.on_eq_ok.2 ⟨_, Element.perform_rename v step, rfl⟩⟩
  | cons hop hops =>
    simp only [edit] at edited ⊢
    split at edited
    · rename_i c found
      obtain ⟨c', below, rfl⟩ := Act.on_eq_ok.1 edited
      obtain ⟨e', put, again⟩ := put_rename v (e := e) (h := hop) c'
      rw [child_rename v found]
      exact ⟨e', done, put, Act.on_eq_ok.2 ⟨c', below, again.symm⟩⟩
    · cases edited

theorem run_rename {steps : List Step} {n : Node} (h : (element e).run steps = .ok n) :
    ∃ e', n = element e' ∧ (element (e.rename v)).run steps = .ok (element (e'.rename v)) := by
  induction steps generalizing e with
  | nil =>
    cases h
    exact ⟨e, rfl, rfl⟩
  | cons s r ih =>
    rw [run, List.foldlM_cons] at h
    obtain ⟨next, stepped, rest⟩ := Except.bind_eq_ok.1 h
    obtain ⟨done, edited, same⟩ := Except.bind_eq_ok.1 stepped
    cases same
    obtain ⟨e', again, root, edited'⟩ := edit_rename v (step_eq_ok.1 edited)
    rw [root] at rest
    obtain ⟨e'', last, rest'⟩ := ih rest
    refine ⟨e'', last, ?_⟩
    rw [run, List.foldlM_cons]
    refine Except.bind_eq_ok.2 ⟨element (e'.rename v), ?_, rest'⟩
    exact Except.bind_eq_ok.2 ⟨⟨_, again.1, again.2⟩, step_eq_ok.2 edited', rfl⟩

end Node

theorem Element.run_rename {e e' : Element} {steps : List Step} (v : Value) (h : e.run steps = .ok e') :
    (e.rename v).run steps = .ok (e'.rename v) := by
  obtain ⟨n, ran, made⟩ := Except.bind_eq_ok.1 h
  obtain ⟨e'', rfl, again⟩ := Node.run_rename v ran
  cases made
  exact Except.bind_eq_ok.2 ⟨_, again, rfl⟩

namespace Recipe

def Uniform (r : Recipe) : Prop :=
  ∀ kind name name' seen seen' o o', r.answer seen (.bare kind name) = .ok o →
    r.answer seen' (.bare kind name') = .ok o' → o.element?.map Element.anonymous = o'.element?.map Element.anonymous

theorem uniform_ofSteps (steps : List Step) : (ofSteps (·.run steps)).Uniform := by
  intro kind name name' seen seen' o o' h h'
  obtain ⟨e, ran, made⟩ := Except.bind_eq_ok.1 h
  obtain ⟨e', ran', made'⟩ := Except.bind_eq_ok.1 h'
  cases made
  cases made'
  have again : (Element.bare kind name').run steps = .ok (e.rename name') := Element.run_rename name' ran
  obtain rfl := Except.ok.inj (again.symm.trans ran')
  rfl

end Recipe

end PhpScaffold
