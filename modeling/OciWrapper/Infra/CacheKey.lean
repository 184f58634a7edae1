import OciWrapper.Text.CaseFold

namespace OciWrapper.Infra

open OciWrapper.Text

/-- The loop of `cache_normalize_sql`: `len` bytes are written so far. -/
def normalizeLoop (destMax : Nat) (len : Nat) (inWs : Bool) : CString → CString
  | [] => []
  | c :: s =>
    if len < destMax - 1 then
      if isSpace c then
        if !inWs && decide (len < destMax - 2) then ' ' :: normalizeLoop destMax (len + 1) true s
        else normalizeLoop destMax len inWs s
      else c.toUpper :: normalizeLoop destMax (len + 1) false s
    else []

def trimTrailingSpace (s : CString) : CString :=
  if s.getLast? = some ' ' then s.dropLast else s

def cacheNormalizeSql (sql : CString) (destMax : Nat) : Option CString :=
  if destMax < 2 then none else some (trimTrailingSpace (normalizeLoop destMax 0 true sql))

def resultsetCacheMakeKey (sql : CString) (destMax : Nat) : Option CString :=
  if destMax < 2 then none else cacheNormalizeSql sql destMax

/-- `sizeof(cache_key)` in `execute_query_batch`. -/
def cacheKeySize : Nat := 8192

theorem foldFrom_none (s : CString) :
    foldFrom .none s = foldFrom .start s ∨ foldFrom .none s = foldFrom .blank s := by
  cases s with
  | nil => exact .inl rfl
  | cons c s =>
    cases blank : isSpace c
    · exact .inl (by simp only [foldFrom, blank, Bool.false_eq_true, if_false, Gap.pad])
    · exact .inr (by simp only [foldFrom, blank, if_true, Gap.widen, Bool.false_eq_true, if_false])

theorem foldFrom_last (g : Gap) (s : CString) : (foldFrom g s).getLast? ≠ some ' ' := by
  induction s generalizing g with
  | nil => simp [foldFrom]
  | cons c s ih =>
    cases blank : isSpace c
    · have kept : c.toUpper ≠ ' ' := by
        intro same
        rw [← isSpace_toUpper, same] at blank
        cases blank
      simp only [foldFrom, blank, Bool.false_eq_true, if_false]
      rw [List.getLast?_append_of_ne_nil _ (List.cons_ne_nil _ _), List.getLast?_cons]
      cases last : (foldFrom .none s).getLast? with
      | none => simpa using kept
      | some d => simpa [last] using ih .none
    · simpa only [foldFrom, blank, if_true] using ih (g.widen false)

theorem normalizeLoop_skip {destMax len : Nat} {s : CString} (blanks : s.all isSpace = true) :
    normalizeLoop destMax len true s = [] := by
  induction s with
  | nil => rfl
  | cons c s ih =>
    rw [List.all_cons, Bool.and_eq_true] at blanks
    simp [normalizeLoop, blanks.1, ih blanks.2]

/-- With room to spare the loop writes the folded text, and a space after it at most. -/
theorem normalizeLoop_fits (destMax : Nat) (s : CString) :
    ∀ len, (len + (foldFrom .none s).length < destMax - 1 →
        normalizeLoop destMax len false s = foldFrom .none s ∨
        normalizeLoop destMax len false s = foldFrom .none s ++ [' ']) ∧
      (len + (foldFrom .start s).length < destMax - 1 →
        normalizeLoop destMax len true s = foldFrom .start s ∨
        normalizeLoop destMax len true s = foldFrom .start s ++ [' ']) := by
  induction s with
  | nil => exact fun _ => ⟨fun _ => .inl rfl, fun _ => .inl rfl⟩
  | cons c s ih =>
    intro len
    cases blank : isSpace c
    · have keep : ∀ inWs, len + (c.toUpper :: foldFrom .none s).length < destMax - 1 →
          normalizeLoop destMax len inWs (c :: s) = c.toUpper :: foldFrom .none s ∨
          normalizeLoop destMax len inWs (c :: s) = c.toUpper :: foldFrom .none s ++ [' '] := by
        intro inWs room
        rw [List.length_cons] at room
        have more : len < destMax - 1 := by omega
        simp only [normalizeLoop, if_pos more, blank, Bool.false_eq_true, if_false,
          List.cons_append, List.cons.injEq, true_and]
        exact (ih (len + 1)).1 (by omega)
      simpa only [foldFrom, blank, Bool.false_eq_true, if_false, Gap.pad, List.nil_append] using
        And.intro (keep false) (keep true)
    · constructor
      · intro room
        rw [foldFrom_none_space blank, foldFrom_blank] at room ⊢
        have more : len < destMax - 1 := by omega
        simp only [normalizeLoop, if_pos more, blank, if_true, Bool.not_false, Bool.true_and,
          decide_eq_true_eq]
        split
        · by_cases empty : foldFrom .start s = []
          · rw [normalizeLoop_skip ((foldFrom_start_eq_nil s).mp empty), if_pos empty]
            exact .inr rfl
          · rw [if_neg empty, List.length_cons] at room
            simp only [if_neg empty, List.cons_append, List.cons.injEq, true_and]
            exact (ih (len + 1)).2 (by omega)
        · have empty : foldFrom .start s = [] := by
            by_contra text
            rw [if_neg text, List.length_cons] at room
            omega
          have none : foldFrom .none s = [] :=
            foldFrom_blanks ((foldFrom_start_eq_nil s).mp empty) .none
          have skip := (ih len).1 (by rw [none]; simpa using more)
          rw [none] at skip
          rw [if_pos empty]
          exact skip
      · intro room
        have start : foldFrom .start (c :: s) = foldFrom .start s := by
          simp only [foldFrom, blank, if_true, Gap.widen]
        rw [start] at room ⊢
        have more : len < destMax - 1 := by omega
        simp only [normalizeLoop, if_pos more, blank, if_true, Bool.not_true, Bool.false_and,
          Bool.false_eq_true, if_false]
        exact (ih len).2 room

/-- Without room the loop fills the destination with what comes first. -/
structure Filled (destMax len : Nat) (inWs : Bool) (s : CString) : Prop where
  length : (normalizeLoop destMax len inWs s).length = destMax - 1 - len
  last : (normalizeLoop destMax len inWs s).getLast? ≠ some ' '
  extend : ∀ t, normalizeLoop destMax len inWs (s ++ t) = normalizeLoop destMax len inWs s

theorem Filled.atEnd {destMax len : Nat} (full : destMax - 1 ≤ len) (inWs : Bool) (s : CString) :
    Filled destMax len inWs s := by
  have stop : ∀ t, normalizeLoop destMax len inWs t = [] := by
    intro t
    cases t with
    | nil => rfl
    | cons d t => simp only [normalizeLoop, if_neg (Nat.not_lt.mpr full)]
  exact ⟨by rw [stop, List.length_nil]; omega, by rw [stop]; simp, fun t => by rw [stop, stop]⟩

theorem Filled.keep {destMax len : Nat} {c : Char} {s : CString} (inWs : Bool)
    (kept : isSpace c = false) (room : len < destMax - 1)
    (rest : Filled destMax (len + 1) false s) : Filled destMax len inWs (c :: s) := by
  have step : ∀ t, normalizeLoop destMax len inWs (c :: t) =
      c.toUpper :: normalizeLoop destMax (len + 1) false t := by
    intro t
    simp only [normalizeLoop, if_pos room, kept, Bool.false_eq_true, if_false]
  refine ⟨?_, ?_, fun t => ?_⟩
  · rw [step, List.length_cons, rest.length]
    omega
  · rw [step, List.getLast?_cons]
    cases last : (normalizeLoop destMax (len + 1) false s).getLast? with
    | none =>
      rintro same
      have upper : c.toUpper = ' ' := by simpa using same
      rw [← isSpace_toUpper, upper] at kept
      cases kept
    | some d => simpa [last] using rest.last
  · rw [List.cons_append, step, step, rest.extend]

theorem Filled.skip {destMax len : Nat} {c : Char} {s : CString} {inWs : Bool}
    (blank : isSpace c = true) (room : len < destMax - 1)
    (waits : inWs = true ∨ ¬ len < destMax - 2) (rest : Filled destMax len inWs s) :
    Filled destMax len inWs (c :: s) := by
  have step : ∀ t, normalizeLoop destMax len inWs (c :: t) = normalizeLoop destMax len inWs t := by
    intro t
    have held : (!inWs && decide (len < destMax - 2)) = false := by
      rcases waits with rfl | waits
      · rfl
      · rw [decide_eq_false waits, Bool.and_false]
    simp only [normalizeLoop, if_pos room, blank, if_true, held, Bool.false_eq_true, if_false]
  exact ⟨by rw [step, rest.length], by rw [step]; exact rest.last,
    fun t => by rw [List.cons_append, step, step, rest.extend]⟩

theorem Filled.space {destMax len : Nat} {c : Char} {s : CString} (blank : isSpace c = true)
    (room : len < destMax - 2) (rest : Filled destMax (len + 1) true s) :
    Filled destMax len false (c :: s) := by
  have more : len < destMax - 1 := by omega
  have step : ∀ t, normalizeLoop destMax len false (c :: t) =
      ' ' :: normalizeLoop destMax (len + 1) true t := by
    intro t
    simp [normalizeLoop, more, blank, room]
  refine ⟨?_, ?_, fun t => ?_⟩
  · rw [step, List.length_cons, rest.length]
    omega
  · rw [step, List.getLast?_cons]
    cases last : (normalizeLoop destMax (len + 1) true s).getLast? with
    | none =>
      have short := rest.length
      rw [List.getLast?_eq_none_iff.mp last, List.length_nil] at short
      omega
    | some d => simpa [last] using rest.last
  · rw [List.cons_append, step, step, rest.extend]

theorem normalizeLoop_overflows (destMax : Nat) (s : CString) :
    ∀ len, (destMax - 1 ≤ len + (foldFrom .none s).length → Filled destMax len false s) ∧
      (destMax - 1 ≤ len + (foldFrom .start s).length → Filled destMax len true s) := by
  induction s with
  | nil => exact fun _ => ⟨fun full => .atEnd full _ _, fun full => .atEnd full _ _⟩
  | cons c s ih =>
    intro len
    by_cases room : len < destMax - 1
    · cases blank : isSpace c
      · have keep : ∀ inWs, destMax - 1 ≤ len + (c.toUpper :: foldFrom .none s).length →
            Filled destMax len inWs (c :: s) := by
          intro inWs full
          rw [List.length_cons] at full
          exact .keep inWs blank room ((ih (len + 1)).1 (by omega))
        simpa only [foldFrom, blank, Bool.false_eq_true, if_false, Gap.pad, List.nil_append] using
          And.intro (keep false) (keep true)
      · constructor
        · intro full
          rw [foldFrom_none_space blank, foldFrom_blank] at full
          have text : foldFrom .start s ≠ [] := by
            intro empty
            rw [if_pos empty, List.length_nil] at full
            omega
          rw [if_neg text, List.length_cons] at full
          by_cases wide : len < destMax - 2
          · exact .space blank wide ((ih (len + 1)).2 (by omega))
          · refine .skip blank room (.inr wide) ((ih len).1 ?_)
            have some := List.length_pos_of_ne_nil text
            rcases foldFrom_none s with same | same
            · rw [same]
              omega
            · rw [same, foldFrom_blank, if_neg text, List.length_cons]
              omega
        · intro full
          have start : foldFrom .start (c :: s) = foldFrom .start s := by
            simp only [foldFrom, blank, if_true, Gap.widen]
          rw [start] at full
          exact .skip blank room (.inl rfl) ((ih len).2 full)
    · exact ⟨fun _ => .atEnd (by omega) _ _, fun _ => .atEnd (by omega) _ _⟩

theorem trimTrailingSpace_text {s : CString} (last : s.getLast? ≠ some ' ') :
    trimTrailingSpace s = s ∧ trimTrailingSpace (s ++ [' ']) = s := by
  simp [trimTrailingSpace, last]

/-- The key of a text that fits is the folded text. -/
theorem resultsetCacheMakeKey_fits {destMax : Nat} (size : 2 ≤ destMax) {sql : CString}
    (fits : (fold sql).length < destMax - 1) :
    resultsetCacheMakeKey sql destMax = some (fold sql) := by
  have last : (fold sql).getLast? ≠ some ' ' := foldFrom_last .start sql
  simp only [resultsetCacheMakeKey, cacheNormalizeSql, if_neg (Nat.not_lt.mpr size)]
  rcases (normalizeLoop_fits destMax sql 0).2 (by simpa [fold] using fits) with same | same
  · rw [same, show foldFrom .start sql = fold sql from rfl, (trimTrailingSpace_text last).1]
  · rw [same, show foldFrom .start sql = fold sql from rfl, (trimTrailingSpace_text last).2]

/-- The key of a text that does not fit is as long as the destination allows
    and does not show what is appended to the text. -/
theorem resultsetCacheMakeKey_overflows {destMax : Nat} (size : 2 ≤ destMax) {sql : CString}
    (full : destMax - 1 ≤ (fold sql).length) :
    ∃ key, resultsetCacheMakeKey sql destMax = some key ∧ key.length = destMax - 1 ∧
      ∀ t, resultsetCacheMakeKey (sql ++ t) destMax = some key := by
  have filled : Filled destMax 0 true sql :=
    (normalizeLoop_overflows destMax sql 0).2 (by simpa [fold] using full)
  refine ⟨normalizeLoop destMax 0 true sql, ?_, filled.length, fun t => ?_⟩
  · simp only [resultsetCacheMakeKey, cacheNormalizeSql, if_neg (Nat.not_lt.mpr size),
      (trimTrailingSpace_text filled.last).1]
  · simp only [resultsetCacheMakeKey, cacheNormalizeSql, if_neg (Nat.not_lt.mpr size),
      filled.extend, (trimTrailingSpace_text filled.last).1]

/-- One key for two texts means one folded text, if the key is not full. -/
theorem fold_eq_of_key_eq {destMax : Nat} (size : 2 ≤ destMax) {sql other : CString}
    (fits : (fold sql).length < destMax - 1)
    (key : resultsetCacheMakeKey other destMax = resultsetCacheMakeKey sql destMax) :
    fold other = fold sql := by
  rw [resultsetCacheMakeKey_fits size fits] at key
  by_cases room : (fold other).length < destMax - 1
  · rw [resultsetCacheMakeKey_fits size room] at key
    exact Option.some.inj key
  · obtain ⟨full, made, length, -⟩ := resultsetCacheMakeKey_overflows size (Nat.not_lt.mp room)
    rw [made] at key
    rw [← Option.some.inj key] at fits
    omega

end OciWrapper.Infra
