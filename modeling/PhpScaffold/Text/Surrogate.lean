/-! Halves of pairs.  Two code units of sixteen bits, each half of a pair, make one character beyond the first plane.  A
half without its other is no character, but a document may spell one.  A text holds it by a character of the ninth
plane, which has none of its own; a character that is meant as such is held there behind a mark, so that every list of
codes has one text (`codes_held`).  A mark is no character of the text: it has no width and stands with the one behind
it.  A text with halves can be shown and compared, but not stored. -/

namespace PhpScaffold.Text

def isHigh (n : Nat) : Bool := 0xD800 ≤ n && n < 0xDC00

def isLow (n : Nat) : Bool := 0xDC00 ≤ n && n < 0xE000

def isHalf (n : Nat) : Bool := isHigh n || isLow n

def joined (high low : Nat) : Nat := 0x10000 + (high - 0xD800) * 0x400 + (low - 0xDC00)

def joinPairs : List Nat → List Nat
  | [] => []
  | [n] => [n]
  | n :: m :: r => if isHigh n && isLow m then joined n m :: joinPairs r else n :: joinPairs (m :: r)

def distance : Nat := 0x90000

/-- The code of the mark.  Behind it a character stands for the next one. -/
def markCode : Nat := 0x9E000

def isMark (c : Char) : Bool := c.toNat = markCode

def isTaken (n : Nat) : Bool := 0x9D800 ≤ n && n ≤ markCode

def held (n : Nat) : List Char :=
  if isHalf n then [Char.ofNat (n + distance)]
  else if isTaken n then [Char.ofNat markCode, Char.ofNat (n - 1)]
  else [Char.ofNat n]

def code (c : Char) : Nat := if isTaken c.toNat then c.toNat - distance else c.toNat

def codes : List Char → List Nat
  | [] => []
  | [c] => [code c]
  | c :: d :: r => if isMark c then (d.toNat + 1) :: codes r else code c :: codes (d :: r)

def characters : List Char → List (List Char)
  | [] => []
  | c :: r =>
    if isMark c then
      match characters r with
      | [] => [[c]]
      | d :: ds => (c :: d) :: ds
    else [c] :: characters r

@[simp] theorem flatten_characters (t : List Char) : (characters t).flatten = t := by
  fun_induction characters t <;> simp_all

theorem eq_nil_of_mem_characters {c : Char} {r t : List Char} (h : c :: r ∈ characters t) (plain : isMark c = false) :
    r = [] := by
  fun_induction characters t with
  | case1 => cases h
  | case2 => simp_all
  | case3 => grind
  | case4 => grind

def count (t : List Char) : Nat := t.countP (!isMark ·)

def size (s : String) : Nat := count s.toList

@[simp] theorem count_append (t u : List Char) : count (t ++ u) = count t + count u := by
  simp [count]

@[simp] theorem size_append (s t : String) : size (s ++ t) = size s + size t := by
  simp [size]

def before (s t : String) : Bool := codes s.toList < codes t.toList

theorem codes_cons {c : Char} (h : isMark c = false) (r : List Char) : codes (c :: r) = code c :: codes r := by
  cases r <;> simp [codes, h]

theorem toNat_ofNat {n : Nat} (h : n.isValidChar) : (Char.ofNat n).toNat = n := by
  rw [Char.ofNat, dif_pos h]
  rfl

/-- Each code is held by one character, and behind a mark it can be told which. -/
theorem held_cases {n : Nat} (hn : n < 0x110000) :
    (∃ c, held n = [c] ∧ isMark c = false ∧ code c = n) ∨
      ∃ m d, held n = [m, d] ∧ isMark m = true ∧ isMark d = false ∧ d.toNat + 1 = n := by
  unfold held
  split
  · rename_i hh
    simp only [isHalf, isHigh, isLow, Bool.or_eq_true, Bool.and_eq_true, decide_eq_true_eq] at hh
    have hv : (n + distance).isValidChar := by unfold Nat.isValidChar distance; omega
    have ht : isTaken (n + distance) := by simp [isTaken, distance, markCode]; omega
    refine .inl ⟨_, rfl, ?_, ?_⟩
    · rw [isMark, toNat_ofNat hv, decide_eq_false_iff_not, distance, markCode]
      omega
    · rw [code, toNat_ofNat hv, if_pos ht]
      simp
  · rename_i hh
    have hv : n.isValidChar := by
      simp only [isHalf, isHigh, isLow, Bool.or_eq_true, Bool.and_eq_true, decide_eq_true_eq] at hh
      unfold Nat.isValidChar
      omega
    split
    · rename_i ht
      simp only [isTaken, Bool.and_eq_true, decide_eq_true_eq] at ht
      rw [markCode] at ht
      have hp : (n - 1).isValidChar := by unfold Nat.isValidChar; omega
      refine .inr ⟨Char.ofNat markCode, Char.ofNat (n - 1), rfl, by decide, ?_, ?_⟩
      · rw [isMark, toNat_ofNat hp, decide_eq_false_iff_not, markCode]
        omega
      · rw [toNat_ofNat hp]
        omega
    · rename_i ht
      refine .inl ⟨_, rfl, ?_, ?_⟩
      · rw [isMark, toNat_ofNat hv, decide_eq_false_iff_not]
        rintro rfl
        exact ht (by decide)
      · rw [code, toNat_ofNat hv, if_neg ht]

theorem codes_held {ns : List Nat} (h : ∀ n ∈ ns, n < 0x110000) : codes (ns.flatMap held) = ns := by
  induction ns with
  | nil => rfl
  | cons n r ih =>
    have ih := ih fun m hm => h m (by simp [hm])
    rw [List.flatMap_cons]
    obtain ⟨c, hc, hm, rfl⟩ | ⟨m, d, hc, hm, -, rfl⟩ := held_cases (h n (by simp))
    · rw [hc, List.singleton_append, codes_cons hm, ih]
    · simp [hc, codes, hm, ih]

theorem count_held {ns : List Nat} (h : ∀ n ∈ ns, n < 0x110000) : count (ns.flatMap held) = ns.length := by
  induction ns with
  | nil => rfl
  | cons n r ih =>
    have ih := ih fun m hm => h m (by simp [hm])
    rw [List.flatMap_cons, count_append, ih, List.length_cons]
    obtain ⟨c, hc, hm, -⟩ | ⟨m, d, hc, hm, hd, -⟩ := held_cases (h n (by simp))
    · simp [hc, count, hm]
      omega
    · simp [hc, count, hm, hd]
      omega

def ofPlain (s : String) : String :=
  if s.any fun c => isTaken c.toNat then .ofList (s.toList.flatMap fun c => held c.toNat) else s

def nameBytes (n : Nat) : Nat := if isHalf n then 1 else (Char.ofNat n).utf8Size

def nameSize (s : String) : Nat := (codes s.toList).foldr (fun n size => nameBytes n + size) 0

def bytes (s : String) : ByteArray := (String.ofList ((codes s.toList).map Char.ofNat)).toUTF8

def ofBytes? (b : ByteArray) : Option String := (String.fromUTF8? b).map ofPlain

/-- The first halves in a row of which none is allowed to be there, and how many characters stand in front of them. -/
def halves? (allowed : Nat → Bool) (s : String) : Option (Nat × List Nat) :=
  let ns := codes s.toList
  match ns.dropWhile fun n => !isHalf n || allowed n with
  | [] => none
  | r => some (ns.length - r.length, r.takeWhile isHalf)

def firstHalves? (s : String) : Option (Nat × List Nat) := halves? (fun _ => false) s

def firstUnnameable? (s : String) : Option (Nat × List Nat) := halves? (fun n => 0xDC80 ≤ n && n < 0xDD00) s

theorem codes_eq {t : List Char} (h : ∀ c ∈ t, isTaken c.toNat = false) : codes t = t.map Char.toNat := by
  induction t with
  | nil => rfl
  | cons c r ih =>
    have plain := h c List.mem_cons_self
    have unmarked : isMark c = false := by
      rw [isMark, decide_eq_false_iff_not]
      intro same
      rw [same] at plain
      exact absurd plain (by decide)
    rw [codes_cons unmarked, code, plain, ih fun d hd => h d (List.mem_cons_of_mem c hd)]
    rfl

theorem firstHalves?_ascii {s : String} (h : ∀ c ∈ s.toList, c.toNat < 0x80) : firstHalves? s = none := by
  have plain : ∀ c ∈ s.toList, isTaken c.toNat = false := fun c hc => by
    have small := h c hc
    simp [isTaken]
    omega
  have whole (t : List Char) (small : ∀ c ∈ t, c.toNat < 0x80) :
      (t.map Char.toNat).dropWhile (fun n => !isHalf n || false) = [] := by
    induction t with
    | nil => rfl
    | cons c r ih =>
      have first := small c (by simp)
      have half : isHalf c.toNat = false := by
        simp [isHalf, isHigh, isLow]
        omega
      rw [List.map_cons, List.dropWhile_cons, half]
      exact ih fun d hd => small d (by simp [hd])
  rw [firstHalves?, halves?, codes_eq plain, whole _ h]

end PhpScaffold.Text
