import OciWrapper.Concurrent.Runs
import OciWrapper.Core.SessionGate
import OciWrapper.Infra.SessionCache

namespace OciWrapper.Session

open OciWrapper.Text OciWrapper.Infra OciWrapper.Concurrent
open OciWrapper.Core (SessionResult)

/-- `session_validate` with no other call between its steps; `out` asks for the record. -/
def sessionValidate (cache : Cache CString) (sessionId : CString) (out : Bool) (now : Int) :
    Cache CString × SessionResult :=
  if sessionId = [] then (cache, .invalidArg)
  else
    match cacheLookup cache sessionId now with
    | (cache, none) => (cache, .notFound)
    | (cache, some entry) =>
      (cacheRelease cache entry.addr,
        if out && (sessionCacheDecode entry.outputDocument).isNone then .notFound else .ok)

/-- `session_end`; `updated` tells whether its `execute_update_batch` succeeds. -/
def sessionEnd (cache : Cache CString) (sessionId : CString) (status : SessionStatus)
    (updated : Bool) (now : Int) : Cache CString × SessionResult :=
  if sessionId = [] then (cache, .invalidArg)
  else if status ≠ .expired ∧ status ≠ .loggedOut ∧ status ≠ .expiredOrphan then
    (cache, .invalidArg)
  else if updated then ((cacheExpireEntry cache sessionId now).1, .ok)
  else (cache, .dbFailure)

inductive CallKind
  | validate (out : Bool)
  | touch
  deriving DecidableEq

/-- A call with its argument; it is late when `session_end` had succeeded before it began. -/
structure SessionCall where
  kind : CallKind
  sessionId : CString
  late : Bool

/-- Where a thread stands in its call. -/
inductive Progress
  | idle
  | found (call : SessionCall) (entry : CacheEntry CString)
  | decoded (call : SessionCall) (entry : CacheEntry CString) (rec : Option SessionRecord)
  | storing (call : SessionCall) (rec : SessionRecord)

def Progress.call : Progress → Option SessionCall
  | .idle => none
  | .found call _ => some call
  | .decoded call _ _ => some call
  | .storing call _ => some call

/-- The session cache and the threads that use it. -/
structure Sessions (T : Type) where
  cache : Cache CString
  now : Int
  progress : T → Progress
  /-- The sessions whose `session_end` has succeeded. -/
  ended : List CString
  returns : List (SessionCall × SessionResult)

/-- `advance` is the next step of the call that the thread is in; `freed` is what it would read
    from an entry that has been freed under it. -/
inductive SessionEvent (T : Type)
  | begin (thread : T) (kind : CallKind) (sessionId : CString)
  | advance (thread : T) (freed : CString) (buffer : Bool) (alloc : AllocOutcome)
  | endSession (sessionId : CString) (status : SessionStatus) (updated : Bool)
  | create (rec : SessionRecord) (buffer : Bool) (alloc : AllocOutcome)
  | evictExpired
  | tick (seconds : Nat)

namespace Sessions

variable {T : Type} [DecidableEq T]

def start (cfg : CacheConfig) (hash : CString → Nat) (docBytes : CString → Nat) (now : Int) :
    Sessions T :=
  ⟨cacheCreate cfg hash docBytes, now, fun _ => .idle, [], []⟩

def proceed (s : Sessions T) (thread : T) (progress : Progress) : Sessions T :=
  { s with progress := Function.update s.progress thread progress }

def finish (s : Sessions T) (thread : T) (call : SessionCall) (result : SessionResult) :
    Sessions T :=
  { s.proceed thread .idle with returns := (call, result) :: s.returns }

/-- What the pointer of a lookup shows. -/
def document (s : Sessions T) (entry : CacheEntry CString) (freed : CString) : CString :=
  match s.cache.entries.find? (·.addr == entry.addr) with
  | some e => e.outputDocument
  | none => freed

/-- The lookup of `session_validate` and `session_touch`. -/
def begin (s : Sessions T) (thread : T) (kind : CallKind) (sessionId : CString) : Sessions T :=
  let call : SessionCall := ⟨kind, sessionId, decide (sessionId ∈ s.ended)⟩
  if sessionId = [] then s.finish thread call .invalidArg
  else
    match cacheLookup s.cache sessionId s.now with
    | (cache, none) => finish { s with cache } thread call .notFound
    | (cache, some entry) => proceed { s with cache } thread (.found call entry)

def advance (s : Sessions T) (thread : T) (freed : CString) (buffer : Bool)
    (alloc : AllocOutcome) : Sessions T :=
  match s.progress thread with
  | .idle => s
  | .found call entry =>
    let shown := if call.kind = .validate false then none
      else sessionCacheDecode (s.document entry freed)
    s.proceed thread (.decoded call entry shown)
  | .decoded call entry rec =>
    let s := { s with cache := cacheRelease s.cache entry.addr }
    match call.kind, rec with
    | .validate false, _ => s.finish thread call .ok
    | .validate true, some _ => s.finish thread call .ok
    | .touch, some rec => s.proceed thread (.storing call { rec with lastActivityTs := s.now })
    | _, none => s.finish thread call .notFound
  | .storing call rec =>
    let (cache, stored) := sessionCacheStore s.cache rec s.now buffer alloc
    finish { s with cache } thread call (if stored then .ok else .dbFailure)

/-- A thread begins a call when it has none; `session_create` makes a new id. -/
def step (s : Sessions T) : SessionEvent T → Sessions T
  | .begin thread kind sessionId =>
    match s.progress thread with
    | .idle => s.begin thread kind sessionId
    | _ => s
  | .advance thread freed buffer alloc => s.advance thread freed buffer alloc
  | .endSession sessionId status updated =>
    let (cache, result) := sessionEnd s.cache sessionId status updated s.now
    { s with cache, ended := if result = .ok then sessionId :: s.ended else s.ended }
  | .create rec buffer alloc =>
    if rec.sessionId ∈ s.ended then s
    else { s with cache := (sessionCacheStore s.cache rec s.now buffer alloc).1 }
  | .evictExpired => { s with cache := cacheEvictExpired s.cache s.now }
  | .tick seconds => { s with now := s.now + seconds }

/-- An ended session does not validate, and no late validation has said otherwise. -/
structure Shut (s : Sessions T) : Prop where
  closed : ∀ sessionId ∈ s.ended, ∀ out, (sessionValidate s.cache sessionId out s.now).2 ≠ .ok
  refused : ∀ call result, (call, result) ∈ s.returns → call.late = true →
    call.kind ≠ .touch → result ≠ .ok

/-- No `session_touch` puts the record of an ended session back into the cache. -/
def Harmless (s : Sessions T) : SessionEvent T → Prop
  | .advance thread _ buffer alloc => ∀ call rec, s.progress thread = .storing call rec →
      rec.sessionId ∈ s.ended → StoreLands s.cache rec buffer alloc = false
  | _ => True

/-- The entries of an ended session have expired, and the calls under way began before. -/
structure Sound (s : Sessions T) : Prop where
  clock : 1 < s.now
  keyed : s.cache.Keyed
  dead : ∀ sessionId ∈ s.ended, ∀ e, s.cache.Holds e → e.normalizedSql = sessionId →
    e.expired s.now = true
  prompt : ∀ thread call, (s.progress thread).call = some call → call.late = false
  refused : ∀ call result, (call, result) ∈ s.returns → call.late = true →
    call.kind ≠ .touch → result ≠ .ok

omit [DecidableEq T] in
theorem Sound.shut {s : Sessions T} (sound : s.Sound) : s.Shut := by
  refine ⟨fun sessionId member out valid => ?_, sound.refused⟩
  have misses := cacheLookup_misses (sound.dead sessionId member)
  simp only [sessionValidate] at valid
  split at valid
  · cases valid
  · split at valid
    · cases valid
    · rename_i found
      rw [found] at misses
      cases misses

omit [DecidableEq T] in
theorem start_sound (cfg : CacheConfig) (hash : CString → Nat) (docBytes : CString → Nat)
    {now : Int} (clock : 1 < now) : (start cfg hash docBytes now : Sessions T).Sound where
  clock := clock
  keyed := cacheCreate_keyed cfg hash docBytes
  dead := fun _ member => by cases member
  prompt := fun _ _ inside => by cases inside
  refused := fun _ _ member => by cases member

theorem expired_later {now later : Int} (le : now ≤ later) {e : CacheEntry CString}
    (dead : e.expired now = true) : e.expired later = true := by
  simp only [CacheEntry.expired, Bool.and_eq_true, decide_eq_true_eq] at dead ⊢
  omega

theorem expired_of_stems {now : Int} {e o : CacheEntry CString} (stems : e.Stems now o)
    (dead : o.expired now = true) : e.expired now = true := by
  cases live : e.expired now with
  | true => rfl
  | false =>
    rw [stems.live (Int.le_refl now) live] at dead
    cases dead

omit [DecidableEq T] in
/-- The cache can change as an operation at this moment changes it. -/
theorem Sound.with_cache {s : Sessions T} (sound : s.Sound) {cache : Cache CString}
    (keyed : cache.Keyed) (ages : cache.Ages s.now s.cache) : Sound { s with cache } where
  clock := sound.clock
  keyed := keyed
  dead := by
    intro sessionId member e held same
    obtain ⟨o, heldOld, stems⟩ := ages e held
    exact expired_of_stems stems
      (sound.dead sessionId member o heldOld (stems.normalizedSql.symm.trans same))
  prompt := sound.prompt
  refused := sound.refused

theorem Sound.proceed {s : Sessions T} (sound : s.Sound) {thread : T} {progress : Progress}
    (prompt : ∀ call, progress.call = some call → call.late = false) :
    (s.proceed thread progress).Sound where
  clock := sound.clock
  keyed := sound.keyed
  dead := sound.dead
  prompt := by
    intro other call inside
    simp only [Sessions.proceed, Function.update_apply] at inside
    split at inside
    · exact prompt call inside
    · exact sound.prompt other call inside
  refused := sound.refused

theorem Sound.finish {s : Sessions T} (sound : s.Sound) {thread : T} {call : SessionCall}
    {result : SessionResult} (refused : call.late = true → result ≠ .ok) :
    (s.finish thread call result).Sound where
  clock := sound.clock
  keyed := sound.keyed
  dead := sound.dead
  prompt := (sound.proceed (fun _ inside => by cases inside)).prompt
  refused := by
    intro other answer member late kind
    rcases List.mem_cons.mp member with same | earlier
    · cases same
      exact refused late
    · exact sound.refused other answer earlier late kind

theorem Sound.begin {s : Sessions T} (sound : s.Sound) (thread : T) (kind : CallKind)
    (sessionId : CString) : (s.begin thread kind sessionId).Sound := by
  simp only [Sessions.begin]
  split
  · exact sound.finish fun _ valid => by cases valid
  · have looked := sound.with_cache (cacheLookup_keyed sound.keyed sessionId s.now)
      (cacheLookup_ages s.cache sessionId s.now)
    split
    · rename_i found
      rw [found] at looked
      exact looked.finish fun _ valid => by cases valid
    · rename_i found
      rw [found] at looked
      refine looked.proceed fun call inside => ?_
      cases inside
      -- a late lookup misses
      rw [decide_eq_false_iff_not]
      intro member
      have misses := cacheLookup_misses (sound.dead sessionId member)
      rw [found] at misses
      cases misses

omit [DecidableEq T] in
theorem Sound.storing {s : Sessions T} (sound : s.Sound) {rec : SessionRecord} {buffer : Bool}
    {alloc : AllocOutcome}
    (harmless : rec.sessionId ∈ s.ended → StoreLands s.cache rec buffer alloc = false) :
    Sound { s with cache := (sessionCacheStore s.cache rec s.now buffer alloc).1 } := by
  by_cases member : rec.sessionId ∈ s.ended
  · have smaller : (sessionCacheStore s.cache rec s.now buffer alloc).1.Shrinks s.cache :=
      sessionCacheStore_shrinks (harmless member)
    exact sound.with_cache (sound.keyed.shrink smaller) (smaller.ages s.now)
  · refine ⟨sound.clock, sessionCacheStore_keyed sound.keyed, ?_, sound.prompt, sound.refused⟩
    intro sessionId ended e held same
    rcases sessionCacheStore_holds held with ⟨o, heldOld, stems⟩ | stored
    · exact expired_of_stems stems
        (sound.dead sessionId ended o heldOld (stems.normalizedSql.symm.trans same))
    · rw [stored] at same
      exact absurd (same ▸ ended) member

theorem Sound.advance {s : Sessions T} (sound : s.Sound) {thread : T} {freed : CString}
    {buffer : Bool} {alloc : AllocOutcome}
    (harmless : s.Harmless (.advance thread freed buffer alloc)) :
    (s.advance thread freed buffer alloc).Sound := by
  have prompt : ∀ call, (s.progress thread).call = some call → call.late = false :=
    sound.prompt thread
  simp only [Sessions.advance]
  cases stands : s.progress thread with
  | idle => exact sound
  | found call entry =>
    rw [stands] at prompt
    exact sound.proceed fun other inside => prompt other inside
  | decoded call entry shown =>
    rw [stands] at prompt
    have early := prompt call rfl
    have released := sound.with_cache (cacheRelease_keyed sound.keyed entry.addr)
      (cacheRelease_ages s.cache entry.addr s.now)
    have returns : ∀ result, call.late = true → result ≠ SessionResult.ok := by
      intro result late
      rw [early] at late
      cases late
    dsimp only
    split
    · exact released.finish (returns _)
    · exact released.finish (returns _)
    · refine released.proceed fun other inside => ?_
      cases inside
      exact early
    · exact released.finish (returns _)
  | storing call rec =>
    rw [stands] at prompt
    have stored := sound.storing (harmless call rec stands)
    refine stored.finish fun late => ?_
    rw [prompt call rfl] at late
    cases late

theorem Sound.endSession {s : Sessions T} (sound : s.Sound) (sessionId : CString)
    (status : SessionStatus) (updated : Bool) :
    (s.step (.endSession sessionId status updated)).Sound := by
  simp only [Sessions.step, sessionEnd]
  split
  · exact sound
  · split
    · exact sound
    · split
      · have keyed := cacheExpireEntry_keyed sound.keyed sessionId s.now
        have expired := sound.with_cache keyed
          (cacheExpireEntry_ages sound.clock s.cache sessionId)
        refine ⟨sound.clock, keyed, ?_, sound.prompt, sound.refused⟩
        intro id member e held same
        rw [if_pos rfl] at member
        rcases List.mem_cons.mp member with rfl | earlier
        · exact cacheExpireEntry_expires sound.clock sound.keyed held same
        · exact expired.dead id earlier e held same
      · exact sound

theorem step_sound (s : Sessions T) (event : SessionEvent T) (sound : s.Sound)
    (harmless : s.Harmless event) : (s.step event).Sound := by
  cases event with
  | begin thread kind sessionId =>
    simp only [Sessions.step]
    split
    · exact sound.begin thread kind sessionId
    · exact sound
  | advance thread freed buffer alloc => exact sound.advance harmless
  | endSession sessionId status updated => exact sound.endSession sessionId status updated
  | create rec buffer alloc =>
    simp only [Sessions.step]
    split
    · exact sound
    · rename_i new
      exact sound.storing fun member => absurd member new
  | evictExpired =>
    exact sound.with_cache (sound.keyed.shrink (cacheEvictExpired_shrinks s.now))
      (cacheEvictExpired_ages s.cache s.now)
  | tick seconds =>
    have later : s.now ≤ s.now + seconds := by omega
    refine ⟨?_, sound.keyed, ?_, sound.prompt, sound.refused⟩
    · exact lt_of_lt_of_le sound.clock later
    · intro sessionId member e held same
      exact expired_later later (sound.dead sessionId member e held same)

/-- A record that lands makes its session valid. -/
theorem revives {s : Sessions T} {thread : T} {freed : CString} {buffer : Bool}
    {alloc : AllocOutcome} (shut : (s.step (.advance thread freed buffer alloc)).Shut) :
    s.Harmless (.advance thread freed buffer alloc) := by
  intro call rec stands member
  cases lands : StoreLands s.cache rec buffer alloc with
  | false => rfl
  | true =>
    have name : rec.sessionId ≠ [] := by
      simp only [StoreLands, Bool.and_eq_true, decide_eq_true_eq] at lands
      exact lands.1.1.1
    have served : ((cacheLookup (sessionCacheStore s.cache rec s.now buffer alloc).1 rec.sessionId
        s.now).2).isSome = true := sessionCacheStore_lands lands
    simp only [Sessions.step, Sessions.advance, stands] at shut
    have closed := shut.closed rec.sessionId member false
    simp only [sessionValidate, if_neg name] at closed
    simp only [finish, Sessions.proceed] at closed
    split at closed
    · rename_i missed
      rw [missed] at served
      cases served
    · simp at closed

/-- Ended sessions stay shut in every state of a run exactly if no `session_touch` of the run
    puts one back. -/
theorem ended_sessions_stay_shut_iff (cfg : CacheConfig) (hash : CString → Nat)
    (docBytes : CString → Nat) (now : Int) (clock : 1 < now) (events : List (SessionEvent T)) :
    (∀ reached, reached <+: events → (reached.foldl step (start cfg hash docBytes now)).Shut) ↔
      Meets step Harmless (start cfg hash docBytes now) events := by
  refine Meets.lawful_iff step_sound (fun s sound => sound.shut) (fun s event _ shut => ?_)
    (start_sound cfg hash docBytes clock)
  cases event with
  | advance thread freed buffer alloc => exact revives shut
  | _ => trivial

def sessionsStart : Sessions Bool := start ⟨1, 0, 0, 1800, true⟩ List.length List.length 1000

def sampleId : CString := "3f2a".toList

def sampleRecord : SessionRecord :=
  ⟨sampleId, .active, 990, 990, 1800, "C1".toList, [], [], "APP".toList⟩

def allocated : AllocOutcome := ⟨true, true, true⟩

/-- The next step of the thread in its call. -/
def next (thread : Bool) : SessionEvent Bool := .advance thread [] true allocated

def logOut : SessionEvent Bool := .endSession sampleId .loggedOut true

/-- A touch that is over before the session ends. -/
def touchedThenEnded : List (SessionEvent Bool) :=
  [.create sampleRecord true allocated, .begin true .touch sampleId, next true, next true,
    next true, logOut, .begin true (.validate false) sampleId]

theorem ended_sessions_stay_shut_after_touch :
    (∀ reached, reached <+: touchedThenEnded → (reached.foldl step sessionsStart).Shut) ∧
      (touchedThenEnded.foldl step sessionsStart).returns.map (·.2) = [.notFound, .ok] := by
  constructor
  · refine (ended_sessions_stay_shut_iff _ _ _ 1000 (by decide) touchedThenEnded).mpr
      ⟨trivial, trivial, ?_, ?_, ?_, trivial, trivial, trivial⟩
    · exact fun _ _ _ member => by cases member
    · exact fun _ _ _ member => by cases member
    · exact fun _ _ _ member => by cases member
  · decide +kernel

/-- The session ends between the release and the store of a touch, and validates again. -/
theorem touch_revives_session :
    let s := [.create sampleRecord true allocated, .begin true .touch sampleId, next true, next true,
      logOut, next true].foldl step sessionsStart
    sampleId ∈ s.ended ∧ (sessionValidate s.cache sampleId false s.now).2 = .ok ∧ ¬ s.Shut := by
  have ended : sampleId ∈ ([.create sampleRecord true allocated, .begin true .touch sampleId,
      next true, next true, logOut, next true].foldl step sessionsStart).ended := by
    decide +kernel
  refine ⟨ended, by decide +kernel, fun shut => ?_⟩
  exact shut.closed sampleId ended false (by decide +kernel)

end Sessions

end OciWrapper.Session
