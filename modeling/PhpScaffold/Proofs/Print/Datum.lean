import PhpScaffold.Proofs.Print.Literal
import PhpScaffold.Proofs.Print.Refusal
import Mathlib.Algebra.Group.Int.Defs
import Mathlib.Algebra.Group.Nat.Defs

namespace PhpScaffold

namespace Decimal

theorem isLong_pow {k : Nat} (h : longest ≤ k) : isLong (10 ^ k) = true := by
  rw [isLong, decide_eq_true_iff, Int.natAbs_pow]
  exact Nat.pow_le_pow_right (by decide) h

theorem isLong_eq_false {n : Int} {k : Nat} (hk : k ≤ longest) (h : n.natAbs < 10 ^ k) : isLong n = false := by
  rw [isLong, decide_eq_false_iff_not, Nat.not_le]
  exact Nat.lt_of_lt_of_le h (Nat.pow_le_pow_right (by decide) hk)

end Decimal

namespace Print

inductive Scalar
  | null
  | bool (b : Bool)
  | int (n : Int)
  | text (s : String)
  deriving DecidableEq

inductive Datum
  | scalar (a : Scalar)
  | array (entries : List (Option Scalar × Datum))

inductive Token
  | blank
  | opening
  | closing
  | comma
  | arrow
  | scalar (a : Scalar)

def isWord (c : Char) : Bool := c.isAlphanum || c = '_' || c = '.' || 0x80 ≤ c.toNat

def number? (w : List Char) : Option Nat :=
  if !w.isEmpty && w.all Char.isDigit && (w.head? ≠ some '0' || w = ['0']) then some (Nat.ofDigitChars 10 w 0) else none

def word? (w : List Char) : Option Scalar :=
  match number? w with
  | some n => some (.int n)
  | none =>
    [("null".toList, .null), ("true".toList, .bool true), ("false".toList, .bool false)].lookup (w.map Char.toLower)

def token? : List Char → Option (Token × List Char)
  | [] => none
  | '[' :: r => some (.opening, r)
  | ']' :: r => some (.closing, r)
  | ',' :: r => some (.comma, r)
  | '=' :: '>' :: r => some (.arrow, r)
  | '\'' :: r => (readInside r).map fun p => (.scalar (.text (.ofList p.1)), p.2)
  | '-' :: r => (number? (r.takeWhile isWord)).map fun n => (.scalar (.int (-n)), r.dropWhile isWord)
  | c :: r =>
    if c = ' ' ∨ c = '\n' ∨ c = '\t' ∨ c = '\r' then some (.blank, r)
    else (word? ((c :: r).takeWhile isWord)).map fun a => (.scalar a, (c :: r).dropWhile isWord)

variable {c : Char} {t w rest : List Char} {k : Token}

theorem length_readInside {p : List Char × List Char} (h : readInside t = some p) : p.2.length < t.length := by
  fun_induction readInside t generalizing p with
  | case1 => cases h
  | case2 r =>
    cases h
    simp
  | case3 r ih | case4 r ih | case5 c r _ _ _ ih =>
    obtain ⟨q, read, rfl⟩ := Option.map_eq_some_iff.1 h
    have shorter := ih read
    simp only [List.length_cons]
    omega

theorem length_dropWhile_lt {p : Char → Bool} (some : t.takeWhile p ≠ []) : (t.dropWhile p).length < t.length := by
  have whole := congrArg List.length (List.takeWhile_append_dropWhile (p := p) (l := t))
  have front := List.length_pos_of_ne_nil some
  rw [List.length_append] at whole
  omega

theorem length_token? (h : token? t = some (k, rest)) : rest.length < t.length := by
  unfold token? at h
  split at h
  · cases h
  · cases h
    simp
  · cases h
    simp
  · cases h
    simp
  · cases h
    simp only [List.length_cons]
    omega
  · obtain ⟨p, read, same⟩ := Option.map_eq_some_iff.1 h
    cases same
    have shorter := length_readInside read
    simp only [List.length_cons]
    omega
  · obtain ⟨n, read, same⟩ := Option.map_eq_some_iff.1 h
    cases same
    exact Nat.lt_succ_of_le (List.dropWhile_suffix _).length_le
  · split at h
    · cases h
      simp
    · obtain ⟨a, read, same⟩ := Option.map_eq_some_iff.1 h
      cases same
      refine length_dropWhile_lt fun none => ?_
      rw [none] at read
      cases read

structure Frame where
  entries : List (Option Scalar × Datum) := []
  key : Option Scalar := none

/-- How far a text has been read: the arrays that are open, innermost first, and what stands right before. -/
structure Reader where
  last : Option Datum := none
  frames : List Frame := []

namespace Reader

def step : Reader → Token → Option Reader
  | s, .blank => some s
  | ⟨none, fs⟩, .scalar a => some ⟨some (.scalar a), fs⟩
  | ⟨none, fs⟩, .opening => some ⟨none, {} :: fs⟩
  | ⟨some (.scalar a), ⟨es, none⟩ :: fs⟩, .arrow => some ⟨none, ⟨es, some a⟩ :: fs⟩
  | ⟨some d, ⟨es, key⟩ :: fs⟩, .comma => some ⟨none, ⟨es ++ [(key, d)], none⟩ :: fs⟩
  | ⟨some d, ⟨es, key⟩ :: fs⟩, .closing => some ⟨some (.array (es ++ [(key, d)])), fs⟩
  | ⟨none, ⟨es, none⟩ :: fs⟩, .closing => some ⟨some (.array es), fs⟩
  | _, _ => none

def run (s : Reader) (t : List Char) : Option Reader :=
  match t with
  | [] => some s
  | c :: r =>
    match _h : token? (c :: r) with
    | none => none
    | some (k, rest) => (s.step k).bind fun next => next.run rest
termination_by t.length
decreasing_by exact length_token? _h

def result? : Reader → Option Datum
  | ⟨some d, []⟩ => some d
  | _ => none

theorem run_of_step {r s : Reader} (token : token? t = some (k, rest)) (next : r.step k = some s) :
    r.run t = s.run rest := by
  cases t with
  | nil => cases token
  | cons c u =>
    rw [run]
    split <;> simp_all

end Reader

/-- The value that a text is a literal of. -/
def read (s : String) : Option Datum := (Reader.run {} s.toList).bind Reader.result?

def Apart (rest : List Char) : Prop := ∀ c ∈ rest.head?, ¬isWord c

@[simp] theorem apart_nil : Apart [] := by simp [Apart]

@[simp] theorem apart_cons : Apart (c :: rest) ↔ ¬isWord c := by simp [Apart]

theorem takeWhile_word (word : ∀ c ∈ w, isWord c) (h : Apart rest) : (w ++ rest).takeWhile isWord = w := by
  rw [List.takeWhile_append_of_pos word]
  cases rest with
  | nil => simp
  | cons c r => rw [List.takeWhile_cons_of_neg (apart_cons.1 h), List.append_nil]

theorem dropWhile_word (word : ∀ c ∈ w, isWord c) (h : Apart rest) : (w ++ rest).dropWhile isWord = rest := by
  rw [List.dropWhile_append_of_pos word]
  cases rest with
  | nil => rfl
  | cons c r => exact List.dropWhile_cons_of_neg (apart_cons.1 h)

theorem token?_cons (h : isWord c) (r : List Char) :
    token? (c :: r) =
      (word? ((c :: r).takeWhile isWord)).map fun a => (.scalar a, (c :: r).dropWhile isWord) := by
  have apart : ∀ d ∈ ['[', ']', ',', '=', '\'', '-', ' ', '\n', '\t', '\r'], ¬isWord d := by decide
  replace apart : c ∉ ['[', ']', ',', '=', '\'', '-', ' ', '\n', '\t', '\r'] := fun inside => apart c inside h
  unfold token?
  split <;> simp_all

theorem isWord_of_isDigit (h : c.isDigit) : isWord c := by
  simp [isWord, Char.isAlphanum, h]

theorem eq_zero_of_head?_toDigits {n : Nat} (h : (Nat.toDigits 10 n).head? = some '0') : n = 0 := by
  have single : ∀ d < 10, [Nat.digitChar d].head? = some '0' → d = 0 := by decide
  induction n using Nat.strongRecOn with
  | ind n ih =>
    by_cases small : n < 10
    · rw [Nat.toDigits_of_lt_base small] at h
      exact single n small h
    · rw [Nat.toDigits_of_base_le (by decide) (by omega), List.head?_append_of_ne_nil _ Nat.toDigits_ne_nil] at h
      have front := ih (n / 10) (by omega) h
      omega

theorem number?_toDigits (n : Nat) : number? (Nat.toDigits 10 n) = some n := by
  have digits : (Nat.toDigits 10 n).all Char.isDigit :=
    List.all_eq_true.2 fun c hc => Nat.isDigit_of_mem_toDigits (by decide) (by decide) hc
  have lead : (Nat.toDigits 10 n).head? ≠ some '0' ∨ Nat.toDigits 10 n = ['0'] := by
    by_cases zero : n = 0
    · subst zero
      exact .inr rfl
    · exact .inl fun h => zero (eq_zero_of_head?_toDigits h)
  simp [number?, digits, lead, Nat.ofDigitChars_toDigits]

namespace Reader

def Reads (t : String) (d : Datum) : Prop :=
  ∀ frames rest, Apart rest → run ⟨none, frames⟩ (t.toList ++ rest) = run ⟨some d, frames⟩ rest

def ReadsEntry (t : String) (e : Option Scalar × Datum) : Prop :=
  ∀ before frames rest, Apart rest →
    run ⟨none, ⟨before, none⟩ :: frames⟩ (t.toList ++ rest) = run ⟨some e.2, ⟨before, e.1⟩ :: frames⟩ rest

variable {d : Datum} {a : Scalar} {s u : String} {ts : List String} {es before : List (Option Scalar × Datum)}
  {frames : List Frame}

theorem run_blank (r : Reader) (t : List Char) : r.run (' ' :: t) = r.run t := run_of_step rfl rfl

theorem run_opening (frames : List Frame) (t : List Char) : run ⟨none, frames⟩ ('[' :: t) = run ⟨none, {} :: frames⟩ t :=
  run_of_step rfl rfl

theorem run_arrow (a : Scalar) (es : List (Option Scalar × Datum)) (frames : List Frame) (t : List Char) :
    run ⟨some (.scalar a), ⟨es, none⟩ :: frames⟩ ('=' :: '>' :: t) = run ⟨none, ⟨es, some a⟩ :: frames⟩ t :=
  run_of_step rfl rfl

theorem run_comma (d : Datum) (f : Frame) (frames : List Frame) (t : List Char) :
    run ⟨some d, f :: frames⟩ (',' :: t) = run ⟨none, ⟨f.entries ++ [(f.key, d)], none⟩ :: frames⟩ t :=
  run_of_step rfl rfl

theorem run_closing (d : Datum) (f : Frame) (frames : List Frame) (t : List Char) :
    run ⟨some d, f :: frames⟩ (']' :: t) = run ⟨some (.array (f.entries ++ [(f.key, d)])), frames⟩ t :=
  run_of_step rfl rfl

theorem run_closing_empty (es : List (Option Scalar × Datum)) (frames : List Frame) (t : List Char) :
    run ⟨none, ⟨es, none⟩ :: frames⟩ (']' :: t) = run ⟨some (.array es), frames⟩ t :=
  run_of_step rfl rfl

theorem reads_of_token? (h : ∀ rest, Apart rest → token? (s.toList ++ rest) = some (.scalar a, rest)) :
    Reads s (.scalar a) := by
  intro frames rest apart
  exact run_of_step (h rest apart) rfl

theorem reads_word (filled : w ≠ []) (word : ∀ c ∈ w, isWord c) (h : word? w = some a) :
    Reads (.ofList w) (.scalar a) := by
  refine reads_of_token? fun rest apart => ?_
  obtain ⟨c, r, rfl⟩ := List.exists_cons_of_ne_nil filled
  rw [String.toList_ofList, List.cons_append, token?_cons (word c List.mem_cons_self), ← List.cons_append,
    takeWhile_word word apart, dropWhile_word word apart, h]
  rfl

theorem reads_literal (s : String) : Reads (literal s) (.scalar (.text s)) := by
  refine reads_of_token? fun rest _ => ?_
  have shown : (literal s).toList ++ rest = '\'' :: (s.toList.flatMap escapeChar ++ '\'' :: rest) := by
    simp [literal, toList_escapeText]
  rw [shown, token?, readInside_escaped, Option.map_some, String.ofList_toList]

theorem reads_int (n : Int) : Reads (toString n) (.scalar (.int n)) := by
  have digits (m : Nat) : ∀ c ∈ Nat.toDigits 10 m, isWord c := fun c hc =>
    isWord_of_isDigit (Nat.isDigit_of_mem_toDigits (by decide) (by decide) hc)
  cases n with
  | ofNat m =>
    have shown : toString (Int.ofNat m) = .ofList (Nat.toDigits 10 m) := Nat.repr_eq_ofList_toDigits
    rw [shown]
    exact reads_word Nat.toDigits_ne_nil (digits m) (by rw [word?, number?_toDigits]; rfl)
  | negSucc m =>
    have shown : (toString (Int.negSucc m)).toList = '-' :: Nat.toDigits 10 (m + 1) := by
      rw [show toString (Int.negSucc m) = "-" ++ (m + 1).repr from rfl, String.toList_append, Nat.toList_repr]
      rfl
    refine reads_of_token? fun rest apart => ?_
    rw [shown, List.cons_append, token?, takeWhile_word (digits _) apart, dropWhile_word (digits _) apart,
      number?_toDigits]
    rfl

theorem readsEntry_item (h : Reads s d) : ReadsEntry s (none, d) := fun before frames rest apart =>
  h (⟨before, none⟩ :: frames) rest apart

theorem readsEntry_keyed (key : Reads s (.scalar a)) (item : Reads u d) :
    ReadsEntry (s ++ " => " ++ u) (some a, d) := by
  intro before frames rest apart
  have shown : (s ++ " => " ++ u).toList ++ rest = s.toList ++ ' ' :: '=' :: '>' :: ' ' :: (u.toList ++ rest) := by
    simp
  rw [shown, key _ _ (by simp +decide), run_blank, run_arrow, run_blank, item _ _ apart]

theorem run_entries (h : ts.Forall₂ ReadsEntry es) (before : List (Option Scalar × Datum)) (frames : List Frame)
    (rest : List Char) :
    run ⟨none, ⟨before, none⟩ :: frames⟩ ((", ".intercalate ts).toList ++ ']' :: rest) =
      run ⟨some (.array (before ++ es)), frames⟩ rest := by
  induction h generalizing before with
  | nil => simp [run_closing_empty]
  | @cons t e ts es first others ih =>
    cases others with
    | nil => rw [String.intercalate_singleton, first _ _ _ (by simp +decide), run_closing]
    | cons second later =>
      have shown (l : List Char) : (t ++ ", ").toList ++ l = t.toList ++ ',' :: ' ' :: l := by
        simp
      rw [String.intercalate_cons_cons, String.toList_append, List.append_assoc, shown, first _ _ _ (by simp +decide),
        run_comma, run_blank, ih, List.append_assoc]
      rfl

theorem reads_array (h : ts.Forall₂ ReadsEntry es) : Reads ("[" ++ ", ".intercalate ts ++ "]") (.array es) := by
  intro frames rest _
  have shown : ("[" ++ ", ".intercalate ts ++ "]").toList ++ rest =
      '[' :: ((", ".intercalate ts).toList ++ ']' :: rest) := by
    simp
  rw [shown, run_opening, run_entries h, List.nil_append]

theorem Reads.read (h : Reads s d) : read s = some d := by
  have whole := h [] [] apart_nil
  rw [List.append_nil] at whole
  rw [Print.read, whole, run]
  rfl

end Reader

example : read "['a' => [1, -20, true,], 'b\\'' => null ]" = some (.array [
    (some (.text "a"), .array [(none, .scalar (.int 1)), (none, .scalar (.int (-20))), (none, .scalar (.bool true))]),
    (some (.text "b'"), .scalar .null)]) := by
  cbv

end Print

namespace Value

open Print (Scalar Datum)

def key? : Value → Option Scalar
  | int n => some (.int n)
  | text s => some (.text s)
  | _ => none

mutual

def datum? : Value → Option Datum
  | null => some (.scalar .null)
  | bool b => some (.scalar (.bool b))
  | int n => some (.scalar (.int n))
  | text s => some (.scalar (.text s))
  | list vs | tuple vs => (itemData? vs).map .array
  | dict es => (entryData? es).map .array
  | _ => none

def itemData? : List Value → Option (List (Option Scalar × Datum))
  | [] => some []
  | v :: r => v.datum?.bind fun d => (itemData? r).map ((none, d) :: ·)

def entryData? : List (Value × Value) → Option (List (Option Scalar × Datum))
  | [] => some []
  | (k, v) :: r => k.key?.bind fun a => v.datum?.bind fun d => (entryData? r).map ((some a, d) :: ·)

end

end Value

namespace Print

open Reader (Reads ReadsEntry)

variable (ns : Namespace)

def Written {α : Type} (x : Except Fault α) (long : Bool) (P : α → Prop) : Prop :=
  if long then x = .error .longNumber else x.Yields P

section

variable {α β : Type} {x : Except Fault α} {f : α → Except Fault β} {first second : Bool} {P : α → Prop} {Q : β → Prop}

theorem Written.ok {a : α} (h : P a) : Written (.ok a) false P := Except.yields_ok.2 h

theorem Written.bind (h : Written x first P) (next : ∀ a, P a → Written (f a) second Q) :
    Written (x >>= f) (first || second) Q := by
  cases first with
  | true =>
    obtain rfl : x = .error .longNumber := h
    rfl
  | false =>
    obtain ⟨a, rfl, kind⟩ : x.Yields P := h
    exact next a kind

theorem Written.map {f : α → β} (h : Written x first P) (last : ∀ a, P a → Q (f a)) :
    Written (x >>= fun a => .ok (f a)) first Q := by
  have ended := h.bind fun a kind => .ok (last a kind)
  rwa [Bool.or_false] at ended

theorem Written.yields (h : Written x first P) (ends : ∃ a, x = .ok a) : x.Yields P := by
  cases first with
  | true =>
    obtain ⟨a, rfl⟩ := ends
    cases h
  | false => exact h

end

theorem value_key {k : Value} {a : Scalar} (h : k.key? = some a) :
    Written (value ns k) k.isLong (Reads · (.scalar a)) := by
  cases k with
  | int n =>
    cases h
    rw [value, Value.isLong]
    generalize Decimal.isLong n = long
    cases long
    · exact .ok (Reader.reads_int n)
    · rfl
  | text s =>
    cases h
    rw [value_text, Value.isLong]
    · exact .ok (Reader.reads_literal s)
    all_goals intro _ same
    all_goals cases same
  | _ => cases h

mutual

theorem value_reads : ∀ (v : Value) {d : Datum}, v.datum? = some d → Written (value ns v) v.isLong (Reads · d)
  | .null, _, rfl => by
    rw [value]
    exact .ok (Reader.reads_word (w := "null".toList) (by decide) (by decide) rfl)
  | .bool true, _, rfl => by
    rw [value]
    exact .ok (Reader.reads_word (w := "true".toList) (by decide) (by decide) rfl)
  | .bool false, _, rfl => by
    rw [value]
    exact .ok (Reader.reads_word (w := "false".toList) (by decide) (by decide) rfl)
  | .int n, _, rfl => value_key ns rfl
  | .text s, _, rfl => value_key ns rfl
  | .list vs, _, h | .tuple vs, _, h => by
    obtain ⟨es, items, rfl⟩ := Option.map_eq_some_iff.1 h
    rw [value, Value.isLong]
    exact (values_read vs items).map fun ts read => Reader.reads_array read
  | .dict fs, _, h => by
    obtain ⟨es, items, rfl⟩ := Option.map_eq_some_iff.1 h
    rw [value, Value.isLong]
    exact (entries_read fs items).map fun ts read => Reader.reads_array read
  | .float _, _, h | .literal _, _, h | .classReference _, _, h | .bytes _, _, h | .set _, _, h | .date _, _, h
  | .moment _, _, h | .again _, _, h | .foreign _, _, h => nomatch h

theorem values_read : ∀ (vs : List Value) {es : List (Option Scalar × Datum)}, Value.itemData? vs = some es →
    Written (values ns vs) (Value.anyLong vs) (List.Forall₂ ReadsEntry · es)
  | [], _, rfl => by
    rw [values]
    exact .ok .nil
  | v :: r, _, h => by
    obtain ⟨d, item, h⟩ := Option.bind_eq_some_iff.1 h
    obtain ⟨es, items, rfl⟩ := Option.map_eq_some_iff.1 h
    rw [values, Value.anyLong]
    exact (value_reads v item).bind fun t first => (values_read r items).map fun ts rest =>
      .cons (Reader.readsEntry_item first) rest

theorem entries_read : ∀ (fs : List (Value × Value)) {es : List (Option Scalar × Datum)},
    Value.entryData? fs = some es →
    Written (entries ns fs) (Value.anyLongEntry fs) (List.Forall₂ ReadsEntry · es)
  | [], _, rfl => by
    rw [entries]
    exact .ok .nil
  | (k, v) :: r, _, h => by
    obtain ⟨a, key, h⟩ := Option.bind_eq_some_iff.1 h
    obtain ⟨d, item, h⟩ := Option.bind_eq_some_iff.1 h
    obtain ⟨es, items, rfl⟩ := Option.map_eq_some_iff.1 h
    rw [entries, Value.anyLongEntry, Bool.or_assoc]
    exact (value_key ns key).bind fun s keyed => (value_reads v item).bind fun t first =>
      (entries_read r items).map fun ts rest => .cons (Reader.readsEntry_keyed keyed first) rest

end

theorem value_read {v : Value} {d : Datum} (h : v.datum? = some d) (ends : ∃ t, value ns v = .ok t) :
    ∃ t, value ns v = .ok t ∧ read t = some d :=
  ((value_reads ns v h).yields ends).imp fun _ => And.imp_right Reader.Reads.read

def nested : Value :=
  .dict [(.text "it's \\", .list [.int (-10), .bool true, .text "', 'x' => ["]), (.int 0, .tuple [.null, .dict []])]

end Print

end PhpScaffold
