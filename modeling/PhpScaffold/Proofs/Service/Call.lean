import PhpScaffold.Proofs.Command.Registry
import PhpScaffold.Proofs.Service.Answer

namespace PhpScaffold.Service

variable {c : Command} {cs : List Command}

structure Reached (c : Command) : Prop where
  routed : Route.ofPath? (Route.toolLead ++ c.name) = some (.tool c.name)
  storable : IsStorable c.name
  apart : Text.startsWith c.name Tool.lead = false

theorem reached_builtin : ∀ c ∈ Command.builtin, Reached c := by
  have routed : ∀ c ∈ Command.builtin, Route.ofPath? (Route.toolLead ++ c.name) = some (.tool c.name) := by
    decide +kernel
  have storable : ∀ c ∈ Command.builtin, IsStorable c.name := by decide +kernel
  have apart : ∀ c ∈ Command.builtin, Text.startsWith c.name Tool.lead = false := by decide +kernel
  exact fun c hc => ⟨routed c hc, storable c hc, apart c hc⟩

theorem find?_eq (reached : Reached c) : find? cs c.name = cs.find? (·.name = c.name) := by
  have other (d : Command) : Tool.name d ≠ c.name := fun same => by
    have begins : Text.startsWith (Tool.name d) Tool.lead = true := by
      rw [Text.startsWith, Tool.name, String.toList_append]
      exact List.isPrefixOf_iff_prefix.2 (List.prefix_append _ _)
    exact Bool.false_ne_true (reached.apart.symm.trans (same ▸ begins))
  rw [find?]
  refine congrArg (List.find? · cs) (funext fun d => ?_)
  simp [other d]

theorem status_refusal (f : Fault) : (refusal f).status ≠ 200 := by
  unfold refusal
  split
  · simp
  · split <;> simp [Response.detail]

theorem status_sent {r : Response} (h : r.status ≠ 200) : r.sent.status ≠ 200 := by
  unfold Response.sent
  split
  · exact h
  · split
    · simp [Response.detail]
    · split
      · exact h
      · simp [Response.detail]

theorem parameters_of_read {s : String} {es : List (Value × Value)}
    (filled : (Text.bytes s).data.toList.isEmpty = false)
    (plain : ∀ c ∈ s.toList, Text.isTaken c.toNat = false)
    (detected : Json.Encoding.detect (Text.bytes s).data.toList = (.utf8, (Text.bytes s).data.toList))
    (read : Json.read s = .ok (.dict [(.text "parameters", .dict es)])) :
    parameters (Text.bytes s).data.toList = .ok es := by
  have decoded : Json.Encoding.decode? (Text.bytes s).data.toList = some s := by
    rw [Json.Encoding.decode?, detected]
    exact Text.ofBytes?_bytes plain
  rw [parameters, filled, decoded]
  simp [read, Value.lookupText, Value.lookup]

section

variable {t : Tree} {place : Path} {host : Host} {q : Request} {given : List (Value × Value)}

theorem respond_call (reached : Reached c) (posted : q.method = "POST") (path : q.path = Route.toolLead ++ c.name)
    (body : parameters q.body = .ok given) :
    respond t place host q = ((call t place host c.name (.ok given)).1,
      (call t place host c.name (.ok given)).2.sent) := by
  have allowed : q.method ∈ (Route.tool c.name).methods := posted ▸ List.mem_cons_self
  simp only [respond, dispatch, path, reached.routed, allowed, not_true_eq_false, if_false, body]

theorem call_unloaded {name : String} {f : Fault} (failed : Config.load t place = .error f) :
    call t place host name (.ok given) = (t, refusal f) := by
  unfold call
  simp only [failed]

variable {cfg : Config} (loaded : Config.load t place = .ok cfg)

include loaded

theorem call_undiscovered {name : String} {f : Fault} (failed : Command.discover host.plugins cfg.commands = .error f) :
    call t place host name (.ok given) = (t, refusal f) := by
  unfold call
  simp only [loaded, failed]

variable (found : Command.discover host.plugins cfg.commands = .ok cs) (reached : Reached c)

include found reached

theorem call_unknown (unknown : c.name ∉ Command.names cs) :
    call t place host c.name (.ok given) = (t, .detail 404 (.text ("Unknown tool '" ++ c.name ++ "'"))) := by
  have none : find? cs c.name = none := by
    rw [find?_eq reached, List.find?_eq_none]
    exact fun d hd same => unknown (List.mem_map.2 ⟨d, hd, of_decide_eq_true same⟩)
  unfold call
  simp only [loaded, found, none]

theorem call_known (there : c ∈ cs) {values : Table Value} (valid : Tool.validate c given = .ok values) :
    call t place host c.name (.ok given) =
      ((perform t host.engine cfg c values).1, answer (perform t host.engine cfg c values).2) := by
  have known : find? cs c.name = some c := by
    rw [find?_eq reached, Command.find?_name (Command.nodup_names_discover found) there]
  unfold call
  simp only [loaded, found, known, valid]

end

end PhpScaffold.Service
