import OciWrapper.Infra.KeyedCache
import OciWrapper.Text.Numerals
import Mathlib.Data.Nat.Find

namespace OciWrapper.Infra

open OciWrapper.Text

def permissionListSize : Nat := 8192

inductive AuthzResult
  | ok | invalidArg | denied | dbFailure
  deriving DecidableEq

/-- `authz_cache_encode`, once its buffer is allocated. -/
def authzCacheEncode (permissionCodesCsv : CString) : CString :=
  "AZ1".toList ++ '|' :: (if permissionCodesCsv = [] then ['-'] else permissionCodesCsv)

def authzCacheDecode (encoded : CString) : Option CString :=
  match encoded.dropWhile (· ≠ '|') with
  | [] => none
  | _ :: codes =>
    if encoded.takeWhile (· ≠ '|') = "AZ1".toList then
      some (if codes = ['-'] then [] else codes.take (permissionListSize - 1))
    else none

/-- `authz_cache_store`; `buffer` tells whether the buffer of the encoding is allocated. -/
def authzCacheStore (cache : Cache CString) (sessionId permissionCodesCsv : CString) (now : Int)
    (buffer : Bool) (alloc : AllocOutcome) : Cache CString × Bool :=
  if sessionId = [] then (cache, false)
  else if buffer then
    cacheInsert cache sessionId (authzCacheEncode permissionCodesCsv)
      (some ⟨0, false, none, none, 0⟩) now alloc
  else (cache, false)

/-- The list with the code behind it, unless that is too long for the buffer. -/
def appendCode (list code : CString) : Option CString :=
  if list.length + (code.length + if 0 < list.length then 1 else 0) ≥ permissionListSize then none
  else some (list ++ (if 0 < list.length then [','] else []) ++ code)

/-- The codes of one fetch; whether the list is truncated. -/
def appendCodes (list : CString) : List CString → CString × Bool
  | [] => (list, false)
  | code :: codes =>
    match appendCode list code with
    | none => (list, true)
    | some longer => appendCodes longer codes

/-- The fetches of the permission query, none for one that fails; the loop ends with a
    fetch without rows. -/
def fetchCodes (list : CString) : List (Option (List CString)) → Option CString
  | [] => some list
  | none :: _ => none
  | some [] :: _ => some list
  | some codes :: fetches =>
    match appendCodes list codes with
    | (list, true) => some list
    | (list, false) => fetchCodes list fetches

/-- The answers of the database to the permission query. -/
structure PermissionQuery where
  opened : Bool
  oneColumn : Bool
  fetches : List (Option (List CString))

def authzBuildPermissionCache (cache : Cache CString) (sessionId : CString) (userId : Int)
    (query : PermissionQuery) (now : Int) (buffer : Bool) (alloc : AllocOutcome) :
    Cache CString × AuthzResult :=
  if sessionId = [] ∨ userId ≤ 0 then (cache, .invalidArg)
  else if !query.opened then (cache, .dbFailure)
  else
    match fetchCodes [] query.fetches with
    | none => (cache, .dbFailure)
    | some list =>
      if !query.oneColumn then (cache, .dbFailure)
      else ((authzCacheStore cache sessionId list now buffer alloc).1, .ok)

def authzHasPermission (cache : Cache CString) (sessionId permissionCode : CString) (now : Int) :
    Cache CString × AuthzResult :=
  if sessionId = [] ∨ permissionCode = [] then (cache, .invalidArg)
  else
    match cacheLookup cache sessionId now with
    | (cache, none) => (cache, .denied)
    | (cache, some entry) =>
      match authzCacheDecode entry.outputDocument with
      | none => (cacheRelease cache entry.addr, .denied)
      | some list =>
        (cacheRelease cache entry.addr,
          if permissionCode ∈ strtokAll ',' list then .ok else .denied)

/-- The text of a list of codes; empty codes in front leave no trace. -/
def codesText (codes : List CString) : CString :=
  [','].intercalate (codes.dropWhile (· = []))

/-- The longest part of the list, from its start, whose text fits the buffer. -/
def storedCodes (codes : List CString) : List CString :=
  codes.take (Nat.findGreatest (fun n => (codesText (codes.take n)).length < permissionListSize)
    codes.length)

theorem intercalate_append_singleton (separator : CString) {pieces : List CString}
    (some : pieces ≠ []) (piece : CString) :
    separator.intercalate (pieces ++ [piece]) = separator.intercalate pieces ++ separator ++ piece := by
  induction pieces with
  | nil => exact absurd rfl some
  | cons first rest ih =>
    cases rest with
    | nil => simp [List.intercalate]
    | cons next rest =>
      have tail := ih (List.cons_ne_nil next rest)
      simp only [List.cons_append, List.intercalate_cons_cons] at tail ⊢
      rw [tail]
      simp

/-- The text of a list is empty only if all its codes are. -/
theorem codesText_eq_nil {codes : List CString} :
    codesText codes = [] ↔ codes.dropWhile (· = []) = [] := by
  rw [codesText]
  constructor
  · intro empty
    cases left : codes.dropWhile (· = []) with
    | nil => rfl
    | cons first rest =>
      have some := List.head?_dropWhile_not (fun code : CString => decide (code = [])) codes
      rw [left] at some empty
      cases rest with
      | nil => simp_all [List.intercalate]
      | cons next rest =>
        rw [List.intercalate_cons_cons] at empty
        simp at empty
  · intro none
    rw [none]
    rfl

theorem codesText_append (codes : List CString) (code : CString) :
    codesText (codes ++ [code]) =
      codesText codes ++ (if 0 < (codesText codes).length then [','] else []) ++ code := by
  have text := @codesText_eq_nil codes
  rw [← List.length_eq_zero_iff] at text
  by_cases none : codes.dropWhile (· = []) = []
  · have zero : (codesText codes).length = 0 := text.mpr none
    rw [if_neg (by omega), List.length_eq_zero_iff.mp zero, codesText, List.dropWhile_append, none]
    by_cases empty : code = []
    · simp [empty, List.intercalate]
    · simp [empty, List.intercalate]
  · have filled : 0 < (codesText codes).length := by
      rw [Nat.pos_iff_ne_zero]
      exact fun zero => none (text.mp zero)
    rw [if_pos filled, codesText, List.dropWhile_append,
      if_neg (by simpa using none), intercalate_append_singleton [','] none, codesText]

/-- A code is appended to the text of those before it if their text is short enough. -/
theorem appendCode_codesText (codes : List CString) (code : CString) :
    appendCode (codesText codes) code =
      if (codesText (codes ++ [code])).length < permissionListSize then
        some (codesText (codes ++ [code]))
      else none := by
  have appended := codesText_append codes code
  have length : (codesText (codes ++ [code])).length =
      (codesText codes).length + (code.length + if 0 < (codesText codes).length then 1 else 0) := by
    rw [appended]
    split <;> simp
  rw [appendCode, ← length, ← appended]
  split
  · next long => rw [if_neg (by omega)]
  · next short => rw [if_pos (by omega)]

theorem codesText_monotone (codes : List CString) {m n : Nat} (less : m ≤ n) :
    (codesText (codes.take m)).length ≤ (codesText (codes.take n)).length := by
  induction n, less using Nat.le_induction with
  | base => exact Nat.le_refl _
  | succ n _ ih =>
    refine ih.trans ?_
    rcases Nat.lt_or_ge n codes.length with inside | outside
    · rw [List.take_succ_eq_append_getElem inside, codesText_append]
      simp only [List.length_append]
      omega
    · rw [List.take_of_length_le outside, List.take_of_length_le (by omega)]

/-- A part that fits and that is the whole, or too long with the next code, is the longest. -/
theorem storedCodes_eq {codes : List CString} {n : Nat} (inside : n ≤ codes.length)
    (fits : (codesText (codes.take n)).length < permissionListSize)
    (last : n = codes.length ∨ ¬ (codesText (codes.take (n + 1))).length < permissionListSize) :
    storedCodes codes = codes.take n := by
  have greatest : Nat.findGreatest
      (fun n => (codesText (codes.take n)).length < permissionListSize) codes.length = n := by
    rw [Nat.findGreatest_eq_iff]
    refine ⟨inside, fun _ => fits, fun m above bound longer => ?_⟩
    rcases last with whole | cut
    · omega
    · exact cut (Nat.lt_of_le_of_lt (codesText_monotone codes above) longer)
  rw [storedCodes, greatest]

theorem storedCodes_short (codes : List CString) :
    (codesText (storedCodes codes)).length < permissionListSize := by
  have none : (codesText (codes.take 0)).length < permissionListSize := by
    rw [List.take_zero]
    decide
  exact Nat.findGreatest_spec (P := fun n => (codesText (codes.take n)).length < permissionListSize)
    (Nat.zero_le _) none

/-- The codes of one fetch are appended as long as they fit. -/
theorem appendCodes_cases {before : List CString} (codes : List CString)
    (short : (codesText before).length < permissionListSize) :
    (appendCodes (codesText before) codes = (codesText (before ++ codes), false) ∧
        (codesText (before ++ codes)).length < permissionListSize) ∨
      ∃ n, n < codes.length ∧
        appendCodes (codesText before) codes = (codesText (before ++ codes.take n), true) ∧
        (codesText (before ++ codes.take n)).length < permissionListSize ∧
        ¬ (codesText (before ++ codes.take (n + 1))).length < permissionListSize := by
  induction codes generalizing before with
  | nil => exact Or.inl ⟨by simp [appendCodes], by simpa using short⟩
  | cons code codes ih =>
    rw [appendCodes, appendCode_codesText]
    by_cases fits : (codesText (before ++ [code])).length < permissionListSize
    · rw [if_pos fits]
      rcases ih fits with ⟨all, whole⟩ | ⟨n, inside, cut, part, long⟩
      · exact Or.inl ⟨by simpa using all, by simpa using whole⟩
      · exact Or.inr ⟨n + 1, by simpa using inside, by simpa using cut, by simpa using part,
          by simpa using long⟩
    · rw [if_neg fits]
      exact Or.inr ⟨0, by simp, by simp, by simpa using short, by simpa using fits⟩

/-- The loop over the fetches writes the text of the longest part that fits. -/
theorem fetchCodes_stored {batches : List (List CString)} (filled : ∀ batch ∈ batches, batch ≠ [])
    {before : List CString} (short : (codesText before).length < permissionListSize) :
    fetchCodes (codesText before) (batches.map some) =
      some (codesText (storedCodes (before ++ batches.flatten))) := by
  induction batches generalizing before with
  | nil =>
    have whole := @storedCodes_eq (before ++ []) before.length (by simp) (by simpa using short)
      (Or.inl (by simp))
    simp only [List.flatten_nil, whole]
    simp [fetchCodes]
  | cons batch batches ih =>
    obtain ⟨first, rest, rfl⟩ := List.exists_cons_of_ne_nil (filled batch List.mem_cons_self)
    rw [List.map_cons, fetchCodes]
    rcases appendCodes_cases (first :: rest) short with ⟨all, whole⟩ | ⟨n, inside, cut, part, long⟩
    · rw [all]
      have tail := ih (fun batch member => filled batch (List.mem_cons_of_mem _ member)) whole
      simpa using tail
    · rw [cut]
      have taken : ∀ m, m ≤ (first :: rest).length →
          (before ++ ((first :: rest) :: batches).flatten).take (before.length + m) =
            before ++ (first :: rest).take m := by
        intro m within
        rw [List.take_length_add_append, List.flatten_cons, List.take_append_of_le_length within]
      have stored := @storedCodes_eq (before ++ ((first :: rest) :: batches).flatten)
        (before.length + n)
        (by rw [List.length_append, List.flatten_cons, List.length_append]; omega)
        (by rw [taken n (Nat.le_of_lt inside)]; exact part)
        (Or.inr (by rw [Nat.add_assoc, taken (n + 1) inside]; exact long))
      rw [stored, taken n (Nat.le_of_lt inside)]
    · simp

theorem strtokAll_codesText {codes : List CString} (commaFree : ∀ code ∈ codes, ',' ∉ code) :
    strtokAll ',' (codesText codes) = codes.filter (· ≠ []) := by
  have same : codes.filter (· ≠ []) = (codes.dropWhile (· = [])).filter (· ≠ []) := by
    induction codes with
    | nil => rfl
    | cons code codes ih =>
      have rest := ih fun other member => commaFree other (List.mem_cons_of_mem _ member)
      by_cases empty : code = []
      · simpa [empty] using rest
      · simp [empty]
  rw [same, strtokAll, codesText]
  cases left : codes.dropWhile (· = []) with
  | nil => rfl
  | cons first others =>
    rw [List.splitOn_intercalate ',' (fun code member => ?_) (List.cons_ne_nil first others)]
    rw [← left] at member
    exact commaFree code (List.dropWhile_sublist _ |>.mem member)

/-- Only the text of a lone dash is read back as something else. -/
theorem authzCacheDecode_encode {list : CString} (fits : list.length < permissionListSize) :
    authzCacheDecode (authzCacheEncode list) = some (if list = ['-'] then [] else list) := by
  unfold authzCacheDecode authzCacheEncode
  by_cases empty : list = []
  · subst empty
    rfl
  · have short : list.take (permissionListSize - 1) = list :=
      List.take_of_length_le (by omega)
    simp [empty, short]

variable {cache : Cache CString} {sessionId : CString} {now later : Int} {alloc : AllocOutcome}

theorem authzHasPermission_served {permissionCode : CString} (named : sessionId ≠ [])
    {entry : CacheEntry CString} (served : (cacheLookup cache sessionId later).2 = some entry)
    {list : CString} (decoded : authzCacheDecode entry.outputDocument = some list) :
    (authzHasPermission cache sessionId permissionCode later).2 = .ok ↔
      permissionCode ≠ [] ∧ permissionCode ∈ strtokAll ',' list := by
  have found : cacheLookup cache sessionId later =
      ((cacheLookup cache sessionId later).1, some entry) := Prod.ext rfl served
  unfold authzHasPermission
  rw [found]
  simp only [decoded]
  by_cases empty : permissionCode = []
  · simp [empty]
  · simp [named, empty]

/-- A permission is granted exactly if its code has been stored, for every code, exactly
    if the stored codes are not a lone dash and none of them is empty. -/
theorem granted_codes_iff (cache : Cache CString) (sessionId : CString) (named : sessionId ≠ [])
    (userId now later : Int) (user : 0 < userId) (alloc : AllocOutcome)
    {batches : List (List CString)} (filled : ∀ batch ∈ batches, batch ≠ [])
    (commaFree : ∀ code ∈ batches.flatten, ',' ∉ code)
    (lands : InsertLands cache sessionId alloc = true) :
    let built := authzBuildPermissionCache cache sessionId userId
      ⟨true, true, batches.map some⟩ now true alloc
    built.2 = .ok ∧
      ((cacheLookup built.1 sessionId later).2.isSome = true →
        ((∀ permissionCode,
            (authzHasPermission built.1 sessionId permissionCode later).2 = .ok ↔
              permissionCode ∈ storedCodes batches.flatten) ↔
          storedCodes batches.flatten ≠ [['-']] ∧ [] ∉ storedCodes batches.flatten)) := by
  intro built
  have fetched : fetchCodes [] (batches.map some) =
      some (codesText (storedCodes batches.flatten)) := by
    have all := @fetchCodes_stored batches filled [] (by decide)
    rwa [List.nil_append] at all
  have built_eq : built = ((cacheInsert cache sessionId
      (authzCacheEncode (codesText (storedCodes batches.flatten))) (some ⟨0, false, none, none, 0⟩)
        now alloc).1, .ok) := by
    simp [built, authzBuildPermissionCache, authzCacheStore, named, Int.not_le.mpr user, fetched]
  rw [built_eq]
  refine ⟨rfl, fun live => ?_⟩
  obtain ⟨entry, served⟩ := Option.isSome_iff_exists.mp live
  have document := cacheInsert_document lands served
  have decoded := authzCacheDecode_encode (storedCodes_short batches.flatten)
  rw [← document] at decoded
  have grants : ∀ permissionCode, (authzHasPermission (cacheInsert cache sessionId
      (authzCacheEncode (codesText (storedCodes batches.flatten))) (some ⟨0, false, none, none, 0⟩)
        now alloc).1 sessionId permissionCode later).2 = .ok ↔ _ :=
    fun permissionCode => authzHasPermission_served named served decoded
  have storedFree : ∀ code ∈ storedCodes batches.flatten, ',' ∉ code :=
    fun code member => commaFree code (List.mem_of_mem_take member)
  have tokens := strtokAll_codesText storedFree
  generalize storedCodes batches.flatten = stored at grants tokens
  simp only [grants]
  constructor
  · intro all
    constructor
    · rintro rfl
      have dash := (all ['-']).mpr (List.mem_singleton_self _)
      revert dash
      decide
    · intro empty
      exact ((all []).mpr empty).1 rfl
  · rintro ⟨dash, filled⟩ permissionCode
    have whole : stored.filter (· ≠ []) = stored := by
      rw [List.filter_eq_self]
      intro code member
      simp only [decide_eq_true_eq]
      rintro rfl
      exact filled member
    rw [whole] at tokens
    have text : codesText stored ≠ ['-'] := by
      intro same
      rw [same] at tokens
      exact dash tokens.symm
    rw [if_neg text, tokens]
    refine ⟨fun granted => granted.2, fun member => ⟨?_, member⟩⟩
    rintro rfl
    exact filled member

def emptyCache : Cache CString := cacheCreate ⟨1, 0, 0, 0, true⟩ List.length List.length

def readAndWrite : List (List CString) := [["EMP.READ".toList], ["EMP.WRITE".toList]]

theorem granted_codes_readAndWrite :
    (cacheLookup (authzBuildPermissionCache emptyCache ['s'] 1
        ⟨true, true, readAndWrite.map some⟩ 10 true ⟨true, true, true⟩).1 ['s'] 20).2.isSome = true ∧
      ∀ permissionCode,
        (authzHasPermission (authzBuildPermissionCache emptyCache ['s'] 1
          ⟨true, true, readAndWrite.map some⟩ 10 true ⟨true, true, true⟩).1 ['s']
            permissionCode 20).2 = .ok ↔
          permissionCode ∈ storedCodes readAndWrite.flatten :=
  ⟨by decide, ((granted_codes_iff emptyCache ['s'] (by decide) 1 10 20 (by decide)
    ⟨true, true, true⟩ (by decide) (by decide) (by decide)).2 (by decide)).mpr (by decide)⟩

/-- A user whose only permission is a dash has none. -/
theorem dash_is_denied :
    storedCodes [['-']] = [['-']] ∧
      (authzHasPermission (authzBuildPermissionCache emptyCache ['s'] 1
        ⟨true, true, [some [['-']]]⟩ 10 true ⟨true, true, true⟩).1 ['s'] ['-'] 20).2 = .denied := by
  decide

end OciWrapper.Infra
