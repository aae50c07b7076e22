import PhpScaffold.Print.File
import PhpScaffold.Proofs.Except

namespace PhpScaffold.Template

variable {b : Bindings} {s t : String} {v : Value} {e : Expr} {body : List Template} {w : Written}

theorem render_text (s : String) : render b (.text s) = .ok { text := s } := by
  rw [render]
  rfl

theorem render_output (h : e.eval b = .ok (.value v)) : render b (.output e []) = .ok { text := v.display } := by
  rw [render, h]
  rfl

theorem render_cond (h : e.eval b = .ok (.value v)) (inside : renderAll b body = .ok { text := s }) :
    render b (.cond e body) = .ok { text := if v.truthy then s else "" } := by
  rw [render, h, Except.ok_bind, inside]
  change (if v.truthy then _ else _) = _
  split <;> rfl

theorem renderAll_nil : renderAll b [] = .ok {} := by
  rw [renderAll]
  rfl

theorem renderAll_cons {x : Template} {r : List Template} (first : render b x = .ok { text := s })
    (rest : renderAll b r = .ok { text := t }) : renderAll b (x :: r) = .ok { text := s ++ t } := by
  rw [renderAll, first, Except.ok_bind]
  change (renderAll b r >>= _) = _
  rw [rest]
  rfl

theorem renderAll_singleton {x : Template} (h : render b x = .ok { text := s }) :
    renderAll b [x] = .ok { text := s } := by
  simpa using renderAll_cons h renderAll_nil

theorem foldlM_rounds {α : Type} {step : Found × Nat → Except Fault Written} {item : α → Found} {g : α → String}
    {as : List α} (round : ∀ a ∈ as, ∀ i, step (item a, i) = .ok { text := g a }) (n : Nat) (s : String) :
    ((as.map item).zipIdx n).foldlM (fun (w : Written) x => do
      if w.round.isSome then return w
      let v ← step x
      return { v with text := w.text ++ v.text }) { text := s } = .ok { text := s ++ String.join (as.map g) } := by
  induction as generalizing n s with
  | nil => simp
  | cons a r ih =>
    obtain ⟨first, rest⟩ := List.forall_mem_cons.1 round
    rw [List.map_cons, List.zipIdx_cons, List.foldlM_cons, first n]
    rw [List.map_cons, String.join_cons, ← String.append_assoc]
    exact ih rest (n + 1) (s ++ g a)

theorem render_loop {α : Type} {name : String} {f : Found} {as : List α} {item : α → Found} (g : α → String)
    (value : e.eval b = .ok f) (items : f.items = .ok (as.map item)) (last : e.lastRound? b = none)
    (round : ∀ a ∈ as, ∀ x, renderAll ((name, item a) :: (roundName, x) :: b) body = .ok { text := g a }) :
    render b (.loop name e body) = .ok { text := String.join (as.map g) } := by
  let step (x : Found × Nat) : Except Fault Written :=
    renderAll ((name, x.1) :: (roundName, .round (as.map item) x.2 (f.extent (as.map item))) :: b) body
  have each : ∀ a ∈ as, ∀ i, step (item a, i) = .ok { text := g a } := fun a ha i => round a ha _
  have rounds := foldlM_rounds each 0 ""
  rw [render, value, Except.ok_bind, items, Except.ok_bind, last, rounds, Except.ok_bind, String.empty_append]
  rfl

theorem eval_name {f : Found} (h : b.lookup s = some f) : (Expr.name s).eval b = .ok f := by
  rw [Expr.eval, h]
  rfl

theorem render_write (h : b.lookup s = some (.value (.text t))) : render b (write s) = .ok { text := t } :=
  render_output (eval_name h)

theorem items_texts (ts : List String) :
    (Found.value (Print.texts ts)).items = .ok (ts.map fun t => .value (.text t)) := by
  simp [Found.items, Print.texts, Value.items?]

theorem lastRound?_name (h : b.lookup s = some (.value v)) : (Expr.name s).lastRound? b = none := by
  rw [Expr.lastRound?, h]

theorem render_loop_texts {name : String} {ts : List String} (g : String → String)
    (value : e.eval b = .ok (.value (Print.texts ts))) (last : e.lastRound? b = none)
    (round : ∀ t x, renderAll ((name, .value (.text t)) :: (roundName, x) :: b) body = .ok { text := g t }) :
    render b (.loop name e body) = .ok { text := String.join (ts.map g) } :=
  render_loop g value (items_texts ts) last fun t _ => round t

def elementText (docblock : String) (attributes : List String) (header : String) (sections : List String) : String :=
  (if docblock.isEmpty then "" else docblock ++ "\n") ++ (String.join (attributes.map (· ++ "\n")) ++ (header ++
    ("\n\x7b\n" ++ (String.join (sections.map fun s => Text.block Print.unit true false s ++ "\n\n") ++ "\x7d"))))

theorem renderAll_element {docblock header : String} {attributes sections : List String}
    (h₁ : b.lookup "docblock" = some (.value (.text docblock)))
    (h₂ : b.lookup "attributes" = some (.value (Print.texts attributes)))
    (h₃ : b.lookup "header" = some (.value (.text header)))
    (h₄ : b.lookup "sections" = some (.value (Print.texts sections))) :
    renderAll b element = .ok { text := elementText docblock attributes header sections } := by
  have front : render b (.cond (.name "docblock") [write "docblock", .text "\n"]) =
      .ok { text := if (Value.text docblock).truthy then docblock ++ "\n" else "" } :=
    render_cond (eval_name h₁) (renderAll_cons (render_write h₁) (renderAll_singleton (render_text _)))
  have lines : render b (.loop "attribute" (.name "attributes") [write "attribute", .text "\n"]) =
      .ok { text := String.join (attributes.map (· ++ "\n")) } := by
    refine render_loop_texts _ (eval_name h₂) (lastRound?_name h₂) fun t x =>
      renderAll_cons (render_write ?_) (renderAll_singleton (render_text _))
    simp
  have blocks : render b (.loop "section" (.name "sections") [
      .output (.name "section") [{ width := 4, first := true }], .text "\n\n"]) =
      .ok { text := String.join (sections.map fun s => Text.block Print.unit true false s ++ "\n\n") } := by
    refine render_loop_texts _ (eval_name h₄) (lastRound?_name h₄) fun t x =>
      renderAll_cons ?_ (renderAll_singleton (render_text _))
    have value : Expr.eval (("section", .value (.text t)) :: (roundName, x) :: b) (.name "section") =
        .ok (.value (.text t)) := eval_name (by simp)
    have unit : String.ofList (List.replicate 4 ' ') = Print.unit := by decide
    rw [render, value, Except.ok_bind, List.foldlM_cons, Found.shift, unit]
    rfl
  have all : renderAll b element = _ := renderAll_cons front (renderAll_cons lines (renderAll_cons (render_write h₃)
    (renderAll_cons (render_text _) (renderAll_cons blocks (renderAll_singleton (render_text _))))))
  rw [all, elementText]
  simp [Value.truthy]

theorem fill_element (docblock : String) (attributes : List String) (header : String) (sections : List String) :
    fill elementName [("docblock", .text docblock), ("attributes", Print.texts attributes), ("header", .text header),
      ("sections", Print.texts sections)] element = .ok (elementText docblock attributes header sections) := by
  have unused : useAll? ownName element = none := by decide +kernel
  rw [fill, unused, renderAll_element]
  · rfl
  all_goals simp [List.lookup_cons]

structure Scope where
  name : Value
  uses : List String
  elements : List String

namespace Scope

def value (s : Scope) : Value := .dict [
  (.text "name", s.name), (.text "uses", Print.texts s.uses), (.text "elements", Print.texts s.elements)]

def text (s : Scope) : String :=
  (if s.name.truthy then "\nnamespace " ++ (s.name.display ++ ";\n") else "") ++
    ((if s.uses.isEmpty then "" else "\n" ++ String.join (s.uses.map fun u => "use " ++ (u ++ ";\n"))) ++
      String.join (s.elements.map fun e => "\n" ++ (e ++ "\n")))

end Scope

def fileText (comment : List String) (strictTypes : Value) (scopes : List Scope) : String :=
  "<?php\n" ++
    ((if comment.isEmpty then "" else
        "\n/**\n" ++ (String.join (comment.map fun l => " * " ++ (l ++ "\n")) ++ " */\n")) ++
      ((if strictTypes.truthy then "\ndeclare(strict_types=1);\n" else "") ++ String.join (scopes.map Scope.text)))

theorem part?_dict {es : List (Value × Value)} {field : String} (kind : field ≠ "__class__")
    (ability : (abilities "dict").contains field = false) : (Found.value (.dict es)).part? field = none := by
  have own : (abilities (Value.dict es).typeName).contains field = false := ability
  rw [Found.part?, if_neg kind, own]
  rfl

theorem eval_path {es : List (Value × Value)} {field : String} (h : b.lookup s = some (.value (.dict es)))
    (found : Value.lookupText field es = some v) (kind : field ≠ "__class__")
    (ability : (abilities "dict").contains field = false) : (Expr.path s [field]).eval b = .ok (.value v) := by
  have path : Expr.path s [field] = .member (.name s) true (.text field) := rfl
  have item : (Found.value (.dict es)).item? (.text field) = some (.value v) := by
    have inside : Template.item? (.dict es) (.text field) = some v := found
    rw [Found.item?, inside]
    rfl
  rw [path, Expr.eval, eval_name h, Except.ok_bind]
  -- its cases overlap, so that it has no equation to rewrite with
  delta Found.member
  simp only [Value.text?, Option.bind_some, part?_dict kind ability, item, Option.none_or, if_true]
  rfl

theorem renderAll_scope {scope : Scope} (h : b.lookup "ns" = some (.value scope.value)) :
    renderAll b [
      .cond (.path "ns" ["name"]) [.text "\nnamespace ", .output (.path "ns" ["name"]) [], .text ";\n"],
      .cond (.path "ns" ["uses"]) [.text "\n",
        .loop "use" (.path "ns" ["uses"]) [.text "use ", write "use", .text ";\n"]],
      .loop "element" (.path "ns" ["elements"]) [.text "\n", write "element", .text "\n"]] =
      .ok { text := scope.text } := by
  have name : (Expr.path "ns" ["name"]).eval b = .ok (.value scope.name) :=
    eval_path h (by simp [Value.lookupText, Value.lookup]) (by decide) (by decide +kernel)
  have uses : (Expr.path "ns" ["uses"]).eval b = .ok (.value (Print.texts scope.uses)) :=
    eval_path h (by simp [Value.lookupText, Value.lookup]) (by decide) (by decide +kernel)
  have elements : (Expr.path "ns" ["elements"]).eval b = .ok (.value (Print.texts scope.elements)) :=
    eval_path h (by simp [Value.lookupText, Value.lookup]) (by decide) (by decide +kernel)
  have heading := render_cond name (renderAll_cons (render_text "\nnamespace ")
    (renderAll_cons (render_output name) (renderAll_singleton (render_text ";\n"))))
  have imports : render b (.loop "use" (.path "ns" ["uses"]) [.text "use ", write "use", .text ";\n"]) =
      .ok { text := String.join (scope.uses.map fun u => "use " ++ (u ++ ";\n")) } := by
    refine render_loop_texts _ uses rfl fun t x => renderAll_cons (render_text _) (renderAll_cons (render_write ?_)
      (renderAll_singleton (render_text _)))
    simp
  have declared : render b (.loop "element" (.path "ns" ["elements"]) [.text "\n", write "element", .text "\n"]) =
      .ok { text := String.join (scope.elements.map fun e => "\n" ++ (e ++ "\n")) } := by
    refine render_loop_texts _ elements rfl fun t x => renderAll_cons (render_text _) (renderAll_cons (render_write ?_)
      (renderAll_singleton (render_text _)))
    simp
  rw [renderAll_cons heading (renderAll_cons (render_cond uses (renderAll_cons (render_text _)
    (renderAll_singleton imports))) (renderAll_singleton declared)), Scope.text]
  simp [Value.truthy, Print.texts]

theorem renderAll_file {comment : List String} {strictTypes : Value} {scopes : List Scope}
    (h₁ : b.lookup "comment" = some (.value (Print.texts comment)))
    (h₂ : b.lookup "strict_types" = some (.value strictTypes))
    (h₃ : b.lookup "namespaces" = some (.value (.list (scopes.map Scope.value)))) :
    renderAll b file = .ok { text := fileText comment strictTypes scopes } := by
  have lines : render b (.loop "line" (.name "comment") [.text " * ", write "line", .text "\n"]) =
      .ok { text := String.join (comment.map fun l => " * " ++ (l ++ "\n")) } := by
    refine render_loop_texts _ (eval_name h₁) (lastRound?_name h₁) fun t x => renderAll_cons (render_text _)
      (renderAll_cons (render_write ?_) (renderAll_singleton (render_text _)))
    simp
  have docblock := render_cond (eval_name h₁) (renderAll_cons (render_text "\n/**\n")
    (renderAll_cons lines (renderAll_singleton (render_text " */\n"))))
  have strict := render_cond (eval_name h₂) (renderAll_singleton (render_text "\ndeclare(strict_types=1);\n"))
  have items : (Found.value (.list (scopes.map Scope.value))).items = .ok (scopes.map fun s => .value s.value) := by
    simp [Found.items, Value.items?]
  have declared := render_loop Scope.text (eval_name h₃) items (lastRound?_name h₃)
    fun s _ x => renderAll_scope (b := ("ns", .value s.value) :: (roundName, x) :: b) (by simp)
  rw [file, renderAll_cons (render_text _) (renderAll_cons docblock (renderAll_cons strict
    (renderAll_singleton declared))), fileText]
  simp [Value.truthy, Print.texts]

theorem fill_file (comment : List String) (strictTypes : Value) (scopes : List Scope) :
    fill fileName [("comment", Print.texts comment), ("strict_types", strictTypes),
      ("namespaces", .list (scopes.map Scope.value))] file = .ok (fileText comment strictTypes scopes) := by
  have unused : useAll? ownName file = none := by decide +kernel
  rw [fill, unused, renderAll_file]
  · rfl
  all_goals simp [List.lookup_cons]

end PhpScaffold.Template
