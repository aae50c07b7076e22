import PhpScaffold.Service
import PhpScaffold.Proofs.Except
import PhpScaffold.Proofs.Json.Write

namespace PhpScaffold.Service

variable {α β : Type} {p q : Prop} {x : Except Fault α} {a : α} {b : β} {f : α → Except Fault β}

structure SaidIf (p : Prop) (x : Except Fault α) (a : α) : Prop where
  told : p → x = .ok a
  kept : ¬ p → ∃ message, x = .error (.raised .value message)

namespace SaidIf

theorem ok (a : α) : SaidIf True (.ok a) a := ⟨fun _ => rfl, fun h => absurd trivial h⟩

theorem eq_ok_iff (h : SaidIf p x a) : x = .ok a ↔ p := by
  refine ⟨fun told => ?_, h.told⟩
  by_contra kept
  obtain ⟨message, failed⟩ := h.kept kept
  cases told.symm.trans failed

theorem congr (h : SaidIf p x a) (same : p ↔ q) : SaidIf q x a := propext same ▸ h

theorem bind (first : SaidIf p x a) (rest : SaidIf q (f a) b) : SaidIf (p ∧ q) (x >>= f) b where
  told h := by rw [first.told h.1, Except.ok_bind, rest.told h.2]
  kept h := by
    by_cases said : p
    · rw [first.told said, Except.ok_bind]
      exact rest.kept fun last => h ⟨said, last⟩
    · obtain ⟨message, failed⟩ := first.kept said
      exact ⟨message, by rw [failed, Except.error_bind]⟩

theorem map (h : SaidIf p x a) (g : α → β) : SaidIf p (x >>= fun a => pure (g a)) (g a) :=
  (h.bind (ok (g a))).congr (and_iff_left trivial)

end SaidIf

theorem saidIf_plainText (s : String) : SaidIf (IsStorable s) (plainText s) s where
  told h := by
    rw [plainText, storable_eq_ok.2 h]
    rfl
  kept h := by
    cases stored : storable s with
    | ok u => exact absurd (storable_eq_ok.1 stored) h
    | error f =>
      rw [plainText, stored]
      exact ⟨_, rfl⟩

theorem saidIf_text (s : String) : SaidIf (IsStorable s) (plain (.text s)) (.text s) := by
  rw [plain]
  exact (saidIf_plainText s).map Value.text

theorem saidIf_list {ι : Type} {l : List ι} {f : ι → Value} {P : ι → Prop}
    (h : ∀ i ∈ l, SaidIf (P i) (plain (f i)) (f i)) :
    SaidIf (∀ i ∈ l, P i) (plain (.list (l.map f))) (.list (l.map f)) := by
  have all : SaidIf (∀ i ∈ l, P i) (plainAll (l.map f)) (l.map f) := by
    induction l with
    | nil => exact (SaidIf.ok _).congr (by simp)
    | cons i r ih =>
      obtain ⟨first, rest⟩ := List.forall_mem_cons.1 h
      rw [List.map_cons, plainAll]
      exact (first.bind ((ih rest).map (f i :: ·))).congr List.forall_mem_cons.symm
  rw [plain]
  exact all.map Value.list

def record (es : List (String × Value)) : Value := .dict (es.map fun e => (.text e.1, e.2))

theorem insertEntry_new {es : List (String × Value)} {k : String} (new : k ∉ es.map Prod.fst) (v : Value) :
    Value.insertEntry (.text k) v (es.map fun e => (.text e.1, e.2)) =
      (es ++ [(k, v)]).map fun e => (.text e.1, e.2) := by
  induction es with
  | nil => rfl
  | cons e r ih =>
    obtain ⟨other, rest⟩ := not_or.1 (mt List.mem_cons.2 new)
    rw [List.map_cons, Value.insertEntry, Value.same_text, if_neg (by simpa using Ne.symm other), ih rest]
    rfl

theorem foldl_insertEntry {front es : List (String × Value)} (distinct : ((front ++ es).map Prod.fst).Nodup) :
    (es.map fun e => (Value.text e.1, e.2)).foldl (fun acc e => Value.insertEntry e.1 e.2 acc)
      (front.map fun e => (.text e.1, e.2)) = (front ++ es).map fun e => (.text e.1, e.2) := by
  induction es generalizing front with
  | nil => rw [List.append_nil]; rfl
  | cons e r ih =>
    have new : e.1 ∉ front.map Prod.fst := fun inside => by
      rw [List.map_append, List.map_cons] at distinct
      exact (List.nodup_append.1 distinct).2.2 _ inside _ List.mem_cons_self rfl
    rw [List.append_cons] at distinct ⊢
    rw [List.map_cons, List.foldl_cons, insertEntry_new new]
    exact ih distinct

theorem ofEntries_record {es : List (String × Value)} (distinct : (es.map Prod.fst).Nodup) :
    Value.ofEntries (es.map fun e => (.text e.1, e.2)) = record es :=
  congrArg Value.dict (@foldl_insertEntry [] es distinct)

theorem saidIf_record {es : List (String × Value)} (distinct : (es.map Prod.fst).Nodup)
    {P : String × Value → Prop} (h : ∀ e ∈ es, IsStorable e.1 ∧ SaidIf (P e) (plain e.2) e.2) :
    SaidIf (∀ e ∈ es, P e) (plain (record es)) (record es) := by
  have all : SaidIf (∀ e ∈ es, P e) (plainEntries (es.map fun e => (.text e.1, e.2)))
      (es.map fun e => (.text e.1, e.2)) := by
    clear distinct
    induction es with
    | nil => exact (SaidIf.ok _).congr (by simp)
    | cons e r ih =>
      obtain ⟨⟨key, first⟩, rest⟩ := List.forall_mem_cons.1 h
      have named : plainKey (.text e.1) = .ok e.1 := (saidIf_plainText e.1).told key
      rw [List.map_cons, plainEntries, named, Except.ok_bind]
      exact (first.bind ((ih rest).map ((.text e.1, e.2) :: ·))).congr List.forall_mem_cons.symm
  have told := all.map Value.ofEntries
  rw [ofEntries_record distinct] at told
  rwa [record, plain]

theorem isFinite_list {vs : List Value} (h : ∀ v ∈ vs, isFinite v) : isFinite (.list vs) := by
  rw [isFinite]
  induction vs with
  | nil => rfl
  | cons v r ih =>
    obtain ⟨first, rest⟩ := List.forall_mem_cons.1 h
    rw [allFinite, first, ih rest]
    rfl

theorem isFinite_record {es : List (String × Value)} (h : ∀ e ∈ es, isFinite e.2) : isFinite (record es) := by
  rw [record, isFinite]
  induction es with
  | nil => rfl
  | cons e r ih =>
    obtain ⟨first, rest⟩ := List.forall_mem_cons.1 h
    rw [List.map_cons, entriesFinite, first, ih rest]
    rfl

structure SentIf (p : Prop) (v : Value) : Prop where
  said : SaidIf p (plain v) v
  finite : isFinite v
  written : p → Json.IsPart (Json.write v)

namespace SentIf

variable {v : Value}

theorem congr (h : SentIf p v) (same : p ↔ q) : SentIf q v := propext same ▸ h

theorem text (s : String) : SentIf (IsStorable s) (.text s) where
  said := saidIf_text s
  finite := by simp [isFinite]
  written h := by rw [Json.write]; exact Json.isPart_writeText h

theorem bool (b : Bool) : SentIf True (.bool b) where
  said := by cases b <;> exact .ok _
  finite := by simp [isFinite]
  written _ := by cases b <;> exact Json.isPart_of_basic (by decide +kernel)

theorem list {ι : Type} {l : List ι} {f : ι → Value} {P : ι → Prop} (h : ∀ i ∈ l, SentIf (P i) (f i)) :
    SentIf (∀ i ∈ l, P i) (.list (l.map f)) where
  said := saidIf_list fun i hi => (h i hi).said
  finite := isFinite_list (List.forall_mem_map.2 fun i hi => (h i hi).finite)
  written all := Json.isPart_list (List.forall_mem_map.2 fun i hi => (h i hi).written (all i hi))

theorem record {es : List (String × Value)} (distinct : (es.map Prod.fst).Nodup) {P : String × Value → Prop}
    (h : ∀ e ∈ es, IsStorable e.1 ∧ SentIf (P e) e.2) : SentIf (∀ e ∈ es, P e) (record es) where
  said := saidIf_record distinct fun e he => ⟨(h e he).1, (h e he).2.said⟩
  finite := isFinite_record fun e he => (h e he).2.finite
  written all := Json.isPart_dict fun e he => ⟨(h e he).1, (h e he).2.written (all e he)⟩

theorem self (h : SentIf p v) : SentIf (plain v = .ok v) v := h.congr h.said.eq_ok_iff.symm

theorem sent_answer (h : SentIf p v) : (p → (answer (.ok v)).sent = ⟨200, .json v⟩) ∧
    (¬ p → (answer (.ok v)).sent.status = 400) := by
  constructor
  · intro all
    have told : answer (.ok v) = ⟨200, .json v⟩ := by
      rw [answer, Except.bind, h.said.told all]
    have stored := storable_eq_ok.2 (h.written all).storable
    simp [told, Response.sent, h.finite, stored]
  · intro kept
    obtain ⟨message, failed⟩ := h.said.kept kept
    have told : answer (.ok v) = .detail 400 (.text message) := by
      rw [answer, Except.bind, failed]
      rfl
    rw [told, Response.sent]
    simp only [Response.detail]
    split
    · rfl
    · split <;> rfl

end SentIf

def texts (q : Preview) : List String := [q.path.text, q.className.display, q.scope, q.content]

theorem sentIf_previewValue {q : Preview} {short : String} (named : q.className = .text short) :
    SentIf (∀ s ∈ texts q, IsStorable s) (previewValue q) := by
  have keys : ∀ k ∈ ["file_path", "class_name", "namespace", "content"], IsStorable k := by decide +kernel
  simp only [List.forall_mem_cons] at keys
  obtain ⟨path, name, scope, content, -⟩ := keys
  have sent := @SentIf.record [("file_path", .text q.path.text), ("class_name", .text short),
    ("namespace", .text q.scope), ("content", .text q.content)] (by simp) (fun e => plain e.2 = .ok e.2) <| by
      simp only [List.forall_mem_cons]
      exact ⟨⟨path, (SentIf.text _).self⟩, ⟨name, (SentIf.text _).self⟩, ⟨scope, (SentIf.text _).self⟩,
        ⟨content, (SentIf.text _).self⟩, by simp⟩
  rw [previewValue, named]
  refine sent.congr ?_
  simp [texts, named, (saidIf_text _).eq_ok_iff]

theorem sentIf_report {c : Command} (named : IsStorable c.name) (dryRun : Bool) (paths : List Path) {ps : List Preview}
    (classes : ∀ q ∈ ps, ∃ short, q.className = .text short) :
    SentIf (∀ s ∈ paths.map Path.text ++ ps.flatMap texts, IsStorable s) (report c dryRun paths ps) := by
  have keys : ∀ k ∈ ["command", "dry_run", "files", "previews"], IsStorable k := by decide +kernel
  simp only [List.forall_mem_cons] at keys
  obtain ⟨command, dry, files, previews, -⟩ := keys
  have written := SentIf.list (l := paths) (f := fun p => .text p.text) fun p _ => SentIf.text p.text
  have shown := SentIf.list (l := ps) (f := previewValue) (P := fun q => ∀ s ∈ texts q, IsStorable s) fun q hq =>
    sentIf_previewValue (classes q hq).choose_spec
  have sent := @SentIf.record [("command", .text c.name), ("dry_run", .bool dryRun),
    ("files", .list (paths.map fun p => .text p.text)), ("previews", .list (ps.map previewValue))] (by simp)
    (fun e => plain e.2 = .ok e.2) <| by
      simp only [List.forall_mem_cons]
      exact ⟨⟨command, (SentIf.text _).self⟩, ⟨dry, (SentIf.bool _).self⟩, ⟨files, written.self⟩,
        ⟨previews, shown.self⟩, by simp⟩
  refine SentIf.congr sent ?_
  simp [(saidIf_text _).eq_ok_iff, (SentIf.bool _).said.eq_ok_iff, written.said.eq_ok_iff, shown.said.eq_ok_iff, named]
  constructor
  · rintro ⟨files, previews⟩ s (⟨p, hp, rfl⟩ | ⟨q, hq, hs⟩)
    · exact files p hp
    · exact previews q hq s hs
  · exact fun all => ⟨fun p hp => all _ (.inl ⟨p, hp, rfl⟩), fun q hq s hs => all s (.inr ⟨q, hq, hs⟩)⟩

end PhpScaffold.Service
