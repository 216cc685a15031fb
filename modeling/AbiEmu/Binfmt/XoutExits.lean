import AbiEmu.Binfmt.XoutLoad

/-!
# The exits of the x.out loader

A file that is refused should be reported, the segment list freed, and a new program started
only with all of its memory in place, or killed. `Tidy` states these three for one way through
`xout_load_object`; `xout_exits_iff` says for which files and answers every way is tidy.

One variable carries read counts, addresses and status, and the last line replaces any value
that is not negative by the break. So a table without data segments, which jumps to `out` with
the length of the table in `err`, is reported as loaded. The result of `flush_old_exec` is
dropped, and a failure of `setup_arg_pages` returns at once and leaves the list. Mapped page
by page, a program gets zeros for its file bytes, since `fp` is `NULL`.
-/

namespace AbiEmu.Binfmt.XoutLoad

open List

open Segments (Seg Header Call State Outcome)

variable {x286 : Bool} {k : Services} {f : File} {executable : Bool}

/-! ## The property -/

/-- The object is not loaded, before the point of no return. -/
def Rejected (x286 : Bool) (k : Services) (f : File) (executable : Bool) : Prop :=
  f.executable x286 = false ∨ k.kmalloc = false ∨ k.readTable < 0 ∨ f.hasData = false ∨
    executable = true ∧ (k.flushOldExec < 0 ∨ k.setupArgPages < 0)

/-- The segment list is given back. -/
def Event.isFree : Event → Bool
  | .act .kfree => true
  | _ => false

/-- The segment was mapped and has its file bytes: there are none, it was mapped from the
file, or all of them were read. -/
structure Brought (events : List Event) (e : Entry) : Prop where
  mapped : ∃ c o, Event.amen e.idx c o ∈ events ∧ 0 ≤ o.err
  filled : e.seg.xsPsize = 0 ∨
    (∃ c o, Event.amen e.idx c o ∈ events ∧ c.fp = true ∧ c.pageable = true) ∨
    ∃ sp, Event.read ⟨e.idx, sp⟩ e.seg.xsPsize.toNat ∈ events

/-- A way through the loader that reports, cleans up, and starts nothing incomplete. -/
structure Tidy (x286 : Bool) (k : Services) (f : File) (executable : Bool) (o : Exit) : Prop where
  reported : Rejected x286 k f executable → o.status < 0
  freed : Event.act .kmalloc ∈ o.events → o.events.countP Event.isFree = 1
  loaded : executable = true → 0 ≤ o.status →
    (∀ e ∈ f.entries, e.seg.isMem = true → Brought o.events e) ∨
      Event.act (.sendSig SIGSEGV) ∈ o.events

/-! ## The condition -/

/-- The headers are accepted and the table is read. -/
def Reached (x286 : Bool) (k : Services) (f : File) : Prop :=
  f.executable x286 = true ∧ k.kmalloc = true ∧ 0 ≤ k.readTable

/-- The load of a program fails after the point of no return: a call of `xout_amen` fails, or
a read is short. -/
def Fails (k : Services) (f : File) (t : Table) : Prop :=
  t.err < 0 ∨ pageable k f = false ∧
    ∃ e ∈ t.entries, e.seg.isFile = true ∧ k.read e.idx ≠ e.seg.xsPsize

/-- Every memory segment with bytes in the file is among those that are read, and the read
is not an error number that equals the size. -/
def Filled (k : Services) (f : File) (t : Table) : Prop :=
  ∀ e ∈ f.entries, e.seg.isMem = true → e.seg.xsPsize = 0 ∨
    pageable k f = false ∧ ∃ sp, (⟨e.idx, sp⟩ : Entry) ∈ t.entries ∧ sp.isFile = true ∧
      bytesRead sp (k.read e.idx) = e.seg.xsPsize.toNat

/-- The calls of `xout_amen` for a new program. -/
def programTable (x286 : Bool) (k : Services) (f : File) (err : Int) (addr : Word) :
    Option Table :=
  mapTable (fun i s => k.amen i (call k f) s) err (startThread x286 k f true addr) f.entries

/-- The files and answers for which every way is tidy. -/
structure TidyWhen (x286 : Bool) (k : Services) (f : File) (executable : Bool) : Prop where
  /-- Without data, the value at entry that is returned happens to be negative. -/
  noData : Reached x286 k f → f.hasData = false →
    returned f.header k.readTable k.mm.brk k.eax < 0
  pages : Reached x286 k f → f.hasData = true → executable = true → 0 ≤ k.setupArgPages
  /-- A program that gets past the overlay: the value that is returned happens to be
  negative, or it was flushed and is killed or complete. -/
  program : Reached x286 k f → f.hasData = true → executable = true →
    ∀ events err addr, overlay x286 k f.header k.setupArgPages = .ok (events, err, addr) →
    ∀ t, programTable x286 k f err addr = some t →
      returned f.header 0 t.thread.mm.brk f.xexec.xEntry < 0 ∨
        0 ≤ k.flushOldExec ∧ (Fails k f t ∨ Filled k f t)

/-! ## The rounds -/

variable {es : List Entry}

/-- If no call failed, every memory segment had its call. -/
theorem mapTable_calls {amen : Nat → State → Option Outcome} :
    ∀ {err : Int} {th : Thread} {t : Table}, mapTable amen err th es = some t → 0 ≤ t.err →
      ∀ e ∈ es, e.seg.isMem = true → ∃ o, (e.idx, o) ∈ t.calls ∧ 0 ≤ o.err := by
  induction es with
  | nil =>
    nofun
  | cons e es ih =>
    intro err th t h hok e' he' hmem'
    rw [mapTable] at h
    split_ifs at h with herr hmem
    · obtain rfl := Option.some.inj h
      exact absurd herr (Int.not_lt.mpr hok)
    · obtain ⟨o, ho, hrest⟩ := Option.bind_eq_some_iff.mp h
      obtain ⟨t', ht', rfl⟩ := Option.map_eq_some_iff.mp hrest
      rcases mem_cons.mp he' with rfl | he'
      · exact ⟨o, mem_cons_self, mapTable_err ht' hok⟩
      · obtain ⟨o', ho', hpos⟩ := ih ht' hok e' he' hmem'
        exact ⟨o', mem_cons_of_mem _ ho', hpos⟩
    · obtain ⟨t', ht', rfl⟩ := Option.map_eq_some_iff.mp h
      rcases mem_cons.mp he' with rfl | he'
      · exact absurd hmem' hmem
      · exact ih ht' hok e' he' hmem'

variable {err : Int} (read : Nat → Word)

/-- The second round fails exactly on a short read. -/
theorem readTable_neg_iff (herr : 0 ≤ err) (es : List Entry) :
    (readTable read err es).2 < 0 ↔ ∃ e ∈ es, e.seg.isFile = true ∧ read e.idx ≠ e.seg.xsPsize := by
  induction es with
  | nil => simp [readTable, Int.not_lt.mpr herr]
  | cons e es ih =>
    unfold readTable
    by_cases hfile : e.seg.isFile = true
    · by_cases hread : read e.idx = e.seg.xsPsize
      · simp [hfile, hread, ih]
      · simp [hfile, hread]
    · simp [hfile, ih]

/-- If no read is short, every text and data segment was read. -/
theorem readTable_events {read : Nat → Word}
    (hall : ∀ e ∈ es, e.seg.isFile = true → read e.idx = e.seg.xsPsize) {e : Entry} {n : Nat} :
    Event.read e n ∈ (readTable read err es).1 ↔
      e ∈ es ∧ e.seg.isFile = true ∧ bytesRead e.seg (read e.idx) = n := by
  induction es with
  | nil => simp [readTable]
  | cons e' es ih =>
    have hrest := ih fun e'' he'' => hall e'' (mem_cons_of_mem e' he'')
    unfold readTable
    split
    next hfile =>
      have hread := hall e' mem_cons_self hfile
      simp only [hread, ne_eq, not_true_eq_false, if_false, mem_cons, hrest, Event.read.injEq]
      constructor
      · rintro (⟨rfl, rfl⟩ | h)
        · exact ⟨Or.inl rfl, hfile, by rw [hread]⟩
        · exact ⟨Or.inr h.1, h.2⟩
      · rintro ⟨rfl | he, hf, hn⟩
        · exact Or.inl ⟨rfl, by rw [← hn, hread]⟩
        · exact Or.inr ⟨he, hf, hn⟩
    next hfile =>
      rw [hrest, mem_cons]
      constructor
      · exact fun h => ⟨Or.inr h.1, h.2⟩
      · rintro ⟨rfl | he, hf, hn⟩
        · exact absurd hf hfile
        · exact ⟨he, hf, hn⟩

/-! ## The events of a load -/

/-- An event of the rounds. -/
def Event.isRound : Event → Bool
  | .amen _ _ _ => true
  | .read _ _ => true
  | _ => false

/-- An event before the rounds. -/
def Event.isBefore : Event → Bool
  | .act .kfree => false
  | .act (.sendSig _) => false
  | .amen _ _ _ => false
  | .read _ _ => false
  | _ => true

theorem startEvents_before (f : File) (executable : Bool) :
    (startEvents f executable).all Event.isBefore = true := by
  cases executable with
  | false | true => rfl

/-- The overlay frees nothing and kills nobody, and ends the load with an error or not at
all. -/
def OverlayTidy : Except (List Event × Int) (List Event × Int × Word) → Prop
  | .error (events, err) => events.all Event.isBefore = true ∧ err < 0
  | .ok (events, _, _) => events.all Event.isBefore = true

theorem overlay_tidy (x286 : Bool) (k : Services) (h : Header) (err : Int) :
    OverlayTidy (overlay x286 k h err) := by
  unfold overlay
  dsimp only
  split_ifs with _ hlib
  · rfl
  · exact ⟨rfl, hlib⟩
  · exact ⟨rfl, by decide⟩
  · rfl
  iterate 2 exact ⟨rfl, by decide⟩
  · rfl

theorem readTable_reads (err : Int) (es : List Entry) :
    ∀ ev ∈ (readTable read err es).1, ∃ e n, ev = Event.read e n := by
  induction es with
  | nil => exact nofun
  | cons e es ih =>
    intro ev hev
    unfold readTable at hev
    split at hev
    · split at hev
      · exact ⟨_, _, mem_singleton.mp hev⟩
      · rcases mem_cons.mp hev with hev | hev
        · exact ⟨_, _, hev⟩
        · exact ih ev hev
    · exact ih ev hev

/-- What the rounds come to: they end with an error exactly if they fail, and consist of the
calls and, where the file is read in, the reads. -/
structure Rounds (k : Services) (f : File) (t : Table) (i : Image) : Prop where
  mm : i.mm = t.thread.mm
  err : i.err < 0 ↔ Fails k f t
  rounds : i.events.all Event.isRound = true
  amen : ∀ idx c o, Event.amen idx c o ∈ i.events ↔ c = call k f ∧ (idx, o) ∈ t.calls
  read : ¬ Fails k f t → ∀ e n, Event.read e n ∈ i.events ↔
    pageable k f = false ∧ e ∈ t.entries ∧ e.seg.isFile = true ∧
      bytesRead e.seg (k.read e.idx) = n

theorem amen_mem_calls {c : Call} {calls : List (Nat × Outcome)} {idx : Nat} {c' : Call}
    {o : Outcome} : Event.amen idx c' o ∈ calls.map (fun p => Event.amen p.1 c p.2) ↔
      c' = c ∧ (idx, o) ∈ calls := by
  rw [mem_map]
  constructor
  · rintro ⟨⟨idx', o'⟩, hp, heq⟩
    injection heq with hidx hc ho
    subst hidx hc ho
    exact ⟨rfl, hp⟩
  · rintro ⟨rfl, hp⟩
    exact ⟨(idx, o), hp, rfl⟩

theorem calls_rounds (c : Call) (calls : List (Nat × Outcome)) :
    (calls.map fun p => Event.amen p.1 c p.2).all Event.isRound = true := by
  rw [all_map]
  exact all_eq_true.mpr fun _ _ => rfl

variable {th : Thread}

/-- The rounds, once their calls have returned. -/
theorem image_spec {i : Image} (h : image k f err th = some i) :
    ∃ t, mapTable (fun i s => k.amen i (call k f) s) err th f.entries = some t ∧
      Rounds k f t i := by
  obtain ⟨t, ht, rfl⟩ := Option.map_eq_some_iff.mp h
  refine ⟨t, ht, ?_⟩
  split_ifs with hstop
  · -- nothing is read
    have hfails : t.err < 0 ↔ Fails k f t := by
      refine ⟨Or.inl, fun hf => hf.elim id fun hread => ?_⟩
      exact hstop.resolve_left (by rw [hread.1]; exact Bool.false_ne_true)
    refine ⟨rfl, hfails, calls_rounds _ _, fun _ _ _ => amen_mem_calls, fun hok e n => ?_⟩
    refine iff_of_false (fun hmem => ?_) fun hread => ?_
    · obtain ⟨p, -, heq⟩ := mem_map.mp hmem
      exact nomatch heq
    · rw [hread.1] at hstop
      exact hok (Or.inl (hstop.resolve_left Bool.false_ne_true))
  · have hpage : pageable k f = false := Bool.not_eq_true _ ▸ fun h => hstop (Or.inl h)
    have hpos : 0 ≤ t.err := Int.not_lt.mp fun h => hstop (Or.inr h)
    have hreads := readTable_reads k.read t.err t.entries
    refine ⟨rfl, ?_, ?_, fun idx c o => ?_, fun hok e n => ?_⟩
    · rw [readTable_neg_iff k.read hpos]
      exact ⟨fun h => Or.inr ⟨hpage, h⟩, fun h => (h.resolve_left (Int.not_lt.mpr hpos)).2⟩
    · rw [all_append, calls_rounds, Bool.true_and, all_eq_true]
      intro ev hev
      obtain ⟨e, n, rfl⟩ := hreads ev hev
      rfl
    · rw [mem_append, amen_mem_calls]
      refine or_iff_left fun hmem => ?_
      obtain ⟨e, n, heq⟩ := hreads _ hmem
      exact nomatch heq
    · rw [mem_append, readTable_events, and_iff_right hpage]
      · refine or_iff_right fun hmem => ?_
        obtain ⟨p, -, heq⟩ := mem_map.mp hmem
        exact nomatch heq
      · intro e' he' hfile
        by_contra hne
        exact hok (Or.inr ⟨hpage, e', he', hfile, hne⟩)

/-! ## A load that gets to its rounds -/

/-- What a load that got to `trap` did. -/
def exitEvents (k : Services) (executable : Bool) (before : List Event) (i : Image) : List Event :=
  before ++ i.events ++ trapEvents k executable i.err ++ [.act .kfree]

variable {before : List Event} {t : Table} {i : Image} {ev : Event}

theorem trapEvents_act (h : ev ∈ trapEvents k executable err) :
    ∃ sig, ev = .act (.sendSig sig) := by
  unfold trapEvents trap at h
  split_ifs at h
  iterate 2 exact ⟨_, mem_singleton.mp h⟩
  all_goals exact nomatch h

/-- The events of the rounds are where they are. -/
theorem round_mem_iff (hbefore : before.all Event.isBefore = true) (hround : ev.isRound = true) :
    ev ∈ exitEvents k executable before i ↔ ev ∈ i.events := by
  unfold exitEvents
  rw [mem_append, mem_append, mem_append]
  constructor
  · rintro (((h | h) | h) | h)
    · have hb := all_eq_true.mp hbefore ev h
      cases ev with
      | amen | read => exact nomatch hb
      | act | uselib | copyToUser => exact nomatch hround
    · exact h
    · obtain ⟨sig, rfl⟩ := trapEvents_act h
      exact nomatch hround
    · rw [mem_singleton.mp h] at hround
      exact nomatch hround
  · exact fun h => Or.inl (Or.inl (Or.inr h))

/-- Nothing is freed by events that are all of a kind that does not. -/
theorem frees_of_all {l : List Event} {p : Event → Bool} (hp : p (.act .kfree) = false)
    (hl : l.all p = true) : l.countP Event.isFree = 0 := by
  rw [countP_eq_zero]
  intro ev hev hfree
  have h := all_eq_true.mp hl ev hev
  unfold Event.isFree at hfree
  split at hfree
  · exact absurd h (Bool.eq_false_iff.mp hp)
  · exact nomatch hfree

section

variable (hbefore : before.all Event.isBefore = true)

include hbefore

/-- The list is freed once. -/
theorem exit_frees (hround : i.events.all Event.isRound = true) :
    (exitEvents k executable before i).countP Event.isFree = 1 := by
  have ht : (trapEvents k executable i.err).countP Event.isFree = 0 := by
    rw [countP_eq_zero]
    intro ev hev hfree
    obtain ⟨sig, rfl⟩ := trapEvents_act hev
    exact nomatch hfree
  unfold exitEvents
  rw [countP_append, countP_append, countP_append, frees_of_all rfl hbefore,
    frees_of_all rfl hround, ht]
  rfl

/-- A new program is killed exactly if its rounds end with an error. -/
theorem killed_iff (hround : i.events.all Event.isRound = true) :
    Event.act (.sendSig SIGSEGV) ∈ exitEvents k true before i ↔ i.err < 0 := by
  unfold exitEvents
  rw [mem_append, mem_append, mem_append]
  constructor
  · rintro (((h | h) | h) | h)
    · exact nomatch all_eq_true.mp hbefore _ h
    · exact nomatch all_eq_true.mp hround _ h
    · by_contra hpos
      unfold trapEvents trap at h
      rw [if_pos rfl, if_neg hpos] at h
      split at h
      · injection mem_singleton.mp h with h
        exact nomatch h
      · exact nomatch h
    · exact nomatch mem_singleton.mp h
  · intro h
    refine Or.inl (Or.inr ?_)
    unfold trapEvents trap
    rw [if_pos rfl, if_pos h]
    exact mem_singleton.mpr rfl

/-- A program that is not killed has all of its segments exactly if they are read in. -/
theorem brought_iff (hi : Rounds k f t i)
    (ht : mapTable (fun i s => k.amen i (call k f) s) err th f.entries = some t)
    (hok : ¬ Fails k f t) :
    (∀ e ∈ f.entries, e.seg.isMem = true → Brought (exitEvents k executable before i) e) ↔
      Filled k f t := by
  have hpos : 0 ≤ t.err := Int.not_lt.mp fun h => hok (Or.inl h)
  have hamen : ∀ idx c o, Event.amen idx c o ∈ exitEvents k executable before i ↔
      c = call k f ∧ (idx, o) ∈ t.calls := by
    intro idx c o
    have hmem : Event.amen idx c o ∈ exitEvents k executable before i ↔ _ :=
      round_mem_iff hbefore rfl
    rw [hmem, hi.amen]
  have hread : ∀ e n, Event.read e n ∈ exitEvents k executable before i ↔ _ := fun e n =>
    (round_mem_iff hbefore rfl).trans (hi.read hok e n)
  refine forall_congr' fun e => forall_congr' fun he => forall_congr' fun hmem => ?_
  constructor
  · intro h
    rcases h.filled with hnone | ⟨c, o, hev, hfp, -⟩ | ⟨sp, hev⟩
    · exact Or.inl hnone
    · -- fp is NULL
      rw [((hamen e.idx c o).mp hev).1] at hfp
      exact nomatch hfp
    · obtain ⟨hpage, hin, hfile, hbytes⟩ := (hread _ _).mp hev
      exact Or.inr ⟨hpage, sp, hin, hfile, hbytes⟩
  · intro h
    obtain ⟨o, ho, herr⟩ := mapTable_calls ht hpos e he hmem
    refine ⟨⟨call k f, o, (hamen _ _ _).mpr ⟨rfl, ho⟩, herr⟩, ?_⟩
    rcases h with hnone | ⟨hpage, sp, hin, hfile, hbytes⟩
    · exact Or.inl hnone
    · exact Or.inr (Or.inr ⟨sp, (hread _ _).mpr ⟨hpage, hin, hfile, hbytes⟩⟩)

end

/-! ## The ways through the loader -/

/-- The early ways: the headers are refused, or the table is not read. -/
theorem tidy_of_not_reached (h : ¬ Reached x286 k f) {o : Exit}
    (ho : xoutLoadObject x286 k f executable = some o) : Tidy x286 k f executable o := by
  unfold xoutLoadObject at ho
  split_ifs at ho with hexec hmalloc hread
  iterate 2
    · obtain rfl := Option.some.inj ho
      exact ⟨fun _ => by decide, nofun, nofun⟩
  · obtain rfl := Option.some.inj ho
    exact ⟨fun _ => hread, fun _ => rfl, fun _ hpos => absurd hread (Int.not_lt.mpr hpos)⟩
  all_goals
    exact absurd ⟨by simpa using hexec, by simpa using hmalloc, Int.not_lt.mp hread⟩ h

theorem load_noData (h : Reached x286 k f) (hdata : f.hasData = false) :
    xoutLoadObject x286 k f executable =
      some ⟨[.act .kmalloc, .act .kfree], returned f.header k.readTable k.mm.brk k.eax⟩ := by
  unfold xoutLoadObject
  simp [h.1, h.2.1, Int.not_lt.mpr h.2.2, hdata]

/-- Every way through the loader is tidy. -/
def AllTidy (x286 : Bool) (k : Services) (f : File) (executable : Bool) : Prop :=
  ∀ o, xoutLoadObject x286 k f executable = some o → Tidy x286 k f executable o

variable {events : List Event}

theorem before_start (executable : Bool) (h : events.all Event.isBefore = true) :
    (startEvents f executable ++ events).all Event.isBefore = true := by
  rw [all_append, startEvents_before, h]
  rfl

theorem allTidy_noData_iff (h : Reached x286 k f) (hdata : f.hasData = false) :
    AllTidy x286 k f executable ↔ TidyWhen x286 k f executable := by
  have hload : xoutLoadObject x286 k f executable = some _ := load_noData h hdata
  unfold AllTidy
  rw [hload]
  constructor
  · intro hall
    refine ⟨fun _ _ => ?_, fun _ hd => ?_, fun _ hd => ?_⟩
    · exact (hall _ rfl).reported (Or.inr (Or.inr (Or.inr (Or.inl hdata))))
    all_goals exact nomatch hdata.symm.trans hd
  · intro hwhen o ho
    obtain rfl := Option.some.inj ho
    have hneg := hwhen.noData h hdata
    exact ⟨fun _ => hneg, fun _ => rfl, fun _ hpos => absurd hneg (Int.not_lt.mpr hpos)⟩

/-! With data in the table. -/

section Data

variable (h : Reached x286 k f) (hdata : f.hasData = true)
include h hdata

theorem load_noPages (hpages : k.setupArgPages < 0) :
    xoutLoadObject x286 k f true =
      some ⟨[.act .kmalloc, .act .flushOldExec, .act .setupArgPages, .act (.sendSig SIGSEGV)],
        k.setupArgPages⟩ := by
  unfold xoutLoadObject
  simp [h.1, h.2.1, Int.not_lt.mpr h.2.2, hdata, hpages]

/-- The other ways, through the overlay. -/
theorem load_overlay (executable : Bool)
    (hpages : executable = true → 0 ≤ k.setupArgPages) :
    (∀ events err, overlay x286 k f.header (startErr k executable) = .error (events, err) →
      xoutLoadObject x286 k f executable =
        some ⟨startEvents f executable ++ events ++ [.act .kfree], err⟩) ∧
    ∀ events err addr, overlay x286 k f.header (startErr k executable) = .ok (events, err, addr) →
      xoutLoadObject x286 k f executable =
        (image k f err (startThread x286 k f executable addr)).map fun i =>
          ⟨exitEvents k executable (startEvents f executable ++ events) i,
            returned f.header (if executable then 0 else i.err) i.mm.brk
              (startEax k f executable)⟩ := by
  have hgo : (executable && decide (k.setupArgPages < 0)) = false := by
    cases executable with
    | false => rfl
    | true => exact decide_eq_false (Int.not_lt.mpr (hpages rfl))
  unfold xoutLoadObject
  simp only [h.1, h.2.1, Int.not_lt.mpr h.2.2, hdata, hgo, Bool.not_true, Bool.false_eq_true,
    if_false]
  constructor
  · intro events err hov
    rw [hov]
  · intro events err addr hov
    rw [hov]
    rfl

/-- A library is tidy once its table has data. -/
theorem library_tidy {o : Exit} (hfreed : o.events.countP Event.isFree = 1) :
    Tidy x286 k f false o := by
  refine ⟨fun hrej => ?_, fun _ => hfreed, nofun⟩
  rcases hrej with hbad | hbad | hbad | hbad | hbad
  · exact absurd h.1 (by rw [hbad]; exact Bool.false_ne_true)
  · exact absurd h.2.1 (by rw [hbad]; exact Bool.false_ne_true)
  · exact absurd h.2.2 (Int.not_le.mpr hbad)
  · exact absurd hdata (by rw [hbad]; exact Bool.false_ne_true)
  · exact nomatch hbad.1

/-- With a table that has data and the arguments in place, only `flush_old_exec` can have
refused a program. -/
theorem rejected_program_iff (hpages : 0 ≤ k.setupArgPages) :
    Rejected x286 k f true ↔ k.flushOldExec < 0 := by
  unfold Rejected
  rw [h.1, h.2.1, hdata]
  have hread := h.2.2
  constructor
  · rintro (hbad | hbad | hbad | hbad | ⟨-, hbad | hbad⟩)
    iterate 2 exact nomatch hbad
    · omega
    · exact nomatch hbad
    · exact hbad
    · omega
  · exact fun hflush => Or.inr (Or.inr (Or.inr (Or.inr ⟨rfl, Or.inl hflush⟩)))

theorem program_tidy_iff (hpages : 0 ≤ k.setupArgPages) (hbefore : before.all Event.isBefore = true)
    (hi : Rounds k f t i)
    (ht : mapTable (fun i s => k.amen i (call k f) s) err th f.entries = some t) {status : Int} :
    Tidy x286 k f true ⟨exitEvents k true before i, status⟩ ↔
      status < 0 ∨ 0 ≤ k.flushOldExec ∧ (Fails k f t ∨ Filled k f t) := by
  have hkilled : Event.act (.sendSig SIGSEGV) ∈ exitEvents k true before i ↔ Fails k f t :=
    (killed_iff hbefore hi.rounds).trans hi.err
  have hrej := rejected_program_iff h hdata hpages
  constructor
  · intro htidy
    by_cases hneg : status < 0
    · exact Or.inl hneg
    refine Or.inr ⟨?_, ?_⟩
    · by_contra hflush
      exact hneg (htidy.reported (hrej.mpr (Int.not_le.mp hflush)))
    · by_cases hfails : Fails k f t
      · exact Or.inl hfails
      · rcases htidy.loaded rfl (Int.not_lt.mp hneg) with hall | hsig
        · exact Or.inr ((brought_iff hbefore hi ht hfails).mp hall)
        · exact absurd (hkilled.mp hsig) hfails
  · intro hwhen
    refine ⟨fun hbad => ?_, fun _ => exit_frees hbefore hi.rounds, fun _ hpos => ?_⟩
    · have hflush := hrej.mp hbad
      rcases hwhen with hneg | ⟨hok, -⟩
      · exact hneg
      · omega
    · obtain ⟨-, hend⟩ := hwhen.resolve_left (Int.not_lt.mpr hpos)
      by_cases hfails : Fails k f t
      · exact Or.inr (hkilled.mpr hfails)
      · exact Or.inl ((brought_iff hbefore hi ht hfails).mpr (hend.resolve_left hfails))

/-- An overlay that fails ends the load with an error and the list freed. -/
theorem allTidy_of_error (hpages : executable = true → 0 ≤ k.setupArgPages)
    (hov : overlay x286 k f.header (startErr k executable) = .error (events, err)) :
    AllTidy x286 k f executable := by
  intro o ho
  rw [(load_overlay h hdata executable hpages).1 events err hov] at ho
  obtain rfl := Option.some.inj ho
  have hover := overlay_tidy x286 k f.header (startErr k executable)
  rw [hov] at hover
  refine ⟨fun _ => hover.2, fun _ => ?_, fun _ hpos => absurd hover.2 (Int.not_lt.mpr hpos)⟩
  rw [countP_append, frees_of_all rfl (before_start executable hover.1)]
  rfl

/-- A library with data is loaded tidily, whatever happens. -/
theorem allTidy_library {addr : Word}
    (hov : overlay x286 k f.header (startErr k false) = .ok (events, err, addr)) :
    AllTidy x286 k f false := by
  intro o ho
  rw [(load_overlay h hdata false nofun).2 events err addr hov] at ho
  obtain ⟨i, hi, rfl⟩ := Option.map_eq_some_iff.mp ho
  obtain ⟨t, -, hrounds⟩ := image_spec hi
  have hover := overlay_tidy x286 k f.header (startErr k false)
  rw [hov] at hover
  exact library_tidy h hdata (exit_frees (before_start false hover) hrounds.rounds)

/-- A program that gets past the overlay. -/
theorem allTidy_program_iff (hpages : 0 ≤ k.setupArgPages) {addr : Word}
    (hov : overlay x286 k f.header k.setupArgPages = .ok (events, err, addr)) :
    AllTidy x286 k f true ↔ ∀ t, programTable x286 k f err addr = some t →
      returned f.header 0 t.thread.mm.brk f.xexec.xEntry < 0 ∨
        0 ≤ k.flushOldExec ∧ (Fails k f t ∨ Filled k f t) := by
  have hload := (load_overlay h hdata true fun _ => hpages).2 events err addr hov
  have hover := overlay_tidy x286 k f.header k.setupArgPages
  rw [hov] at hover
  have hbefore := @before_start f events true hover
  constructor
  · intro hall t ht
    obtain ⟨i, hi⟩ : ∃ i, image k f err (startThread x286 k f true addr) = some i :=
      ⟨_, congrArg (Option.map _) ht⟩
    obtain ⟨t', ht', hrounds⟩ := image_spec hi
    obtain rfl : t = t' := Option.some.inj (ht.symm.trans ht')
    rw [hi] at hload
    have htidy := (program_tidy_iff h hdata hpages hbefore hrounds ht').mp (hall _ hload)
    rwa [hrounds.mm] at htidy
  · intro hwhen o ho
    rw [hload] at ho
    obtain ⟨i, hi, rfl⟩ := Option.map_eq_some_iff.mp ho
    obtain ⟨t, ht, hrounds⟩ := image_spec hi
    refine (program_tidy_iff h hdata hpages hbefore hrounds ht).mpr ?_
    rw [hrounds.mm]
    exact hwhen t ht

end Data

/-! ## Every way -/

/-- The loader reports what it refuses, frees its list once, and starts a program complete or
kills it, on every way that returns, exactly under `TidyWhen`: for every file, every answer,
and both configurations. -/
theorem xout_exits_iff (x286 : Bool) (k : Services) (f : File) (executable : Bool) :
    AllTidy x286 k f executable ↔ TidyWhen x286 k f executable := by
  by_cases hreached : Reached x286 k f
  swap
  · exact iff_of_true (fun o ho => tidy_of_not_reached hreached ho)
      ⟨fun h => absurd h hreached, fun h => absurd h hreached, fun h => absurd h hreached⟩
  cases hdata : f.hasData with
  | false => exact allTidy_noData_iff hreached hdata
  | true =>
    have hno : ∀ {p : Prop}, f.hasData = false → p := fun hd => nomatch hdata.symm.trans hd
    by_cases hpages : executable = true → 0 ≤ k.setupArgPages
    swap
    · -- the list is lost
      obtain ⟨rfl, hneg⟩ := Classical.not_imp.mp hpages
      refine iff_of_false (fun h => ?_) fun h => hneg (h.pages hreached hdata rfl)
      exact nomatch (h _ (load_noPages hreached hdata (Int.not_le.mp hneg))).freed mem_cons_self
    cases hov : overlay x286 k f.header (startErr k executable) with
    | error p =>
      refine iff_of_true (allTidy_of_error hreached hdata hpages hov) ?_
      refine ⟨fun _ => hno, fun _ _ => hpages, fun _ _ hexec events err addr hok => ?_⟩
      rw [hexec] at hov
      exact nomatch hov.symm.trans hok
    | ok p =>
      obtain ⟨events, err, addr⟩ := p
      cases executable with
      | false =>
        exact iff_of_true (allTidy_library hreached hdata hov)
          ⟨fun _ => hno, fun _ _ => hpages, nofun⟩
      | true =>
        have hiff := allTidy_program_iff hreached hdata (hpages rfl) hov
        constructor
        · intro hall
          refine ⟨fun _ => hno, fun _ _ => hpages, fun _ _ _ events' err' addr' hok => ?_⟩
          obtain ⟨-, rfl, rfl⟩ : events = events' ∧ err = err' ∧ addr = addr' := by
            have heq := Except.ok.inj (hov.symm.trans hok)
            injection heq with h₁ h₂
            injection h₂ with h₂ h₃
            exact ⟨h₁, h₂, h₃⟩
          exact hiff.mp hall
        · intro hwhen
          exact hiff.mpr (hwhen.program hreached hdata rfl events err addr hov)

/-! ## Concrete loads -/

/-- A program with the one segment. -/
def oneSegment (s : Seg) : File := ⟨(Xout.oneSegment s.toXseg).xexec, 0, 32, fun _ => s⟩

/-- The default configuration with services that grant everything, but for the results of
`flush_old_exec` and `setup_arg_pages`. -/
def granting (flushOldExec setupArgPages : Int) : Services where
  kernelDs := false
  mmapOp := true
  kmalloc := true
  readTable := 32
  flushOldExec := flushOldExec
  setupArgPages := setupArgPages
  uselib := 0
  mapHeaders := .granted
  copyXexec := true
  copyXext := true
  amen := fun _ c s =>
    let load := Xout.xoutAmen c.kernelDs c.fp c.pageable s.sp.toXseg ⟨.granted, .granted, 0⟩
    some ⟨load.acts.map .act, load.status, { s with mm := s.mm.amen s.sp.toXseg }, 1⟩
  read := fun _ => 0x1000
  mm := ⟨0, 0, 0, 0⟩
  regs := ⟨0, 0, 0, 0, 0, 0, 0⟩
  eax := 0
  ptraced := false

/-- A segment of a page at 0x1000 that is part of the memory image. -/
def pageSegment (type : BitVec 16) (filpos : Word) : Seg :=
  ⟨⟨type, 0x8000, filpos, 0x1000, 0x1000, 0x1000⟩, 0⟩

/-- Four ways that are not tidy: a program without data is reported as loaded; so is one that
`flush_old_exec` refused; where `setup_arg_pages` fails the list is lost; and a program that
can be mapped page by page starts without its file bytes. -/
theorem xout_exits_untidy :
    ¬ AllTidy false (granting 0 0) (oneSegment (pageSegment 1 0x400)) true ∧
      ¬ AllTidy false (granting (-12) 0) (oneSegment (pageSegment 2 0x400)) true ∧
      ¬ AllTidy false (granting 0 (-12)) (oneSegment (pageSegment 2 0x400)) true ∧
      ¬ AllTidy false (granting 0 0) (oneSegment (pageSegment 2 0x1000)) true := by
  refine ⟨fun h => ?_, fun h => ?_, fun h => ?_, fun h => ?_⟩
  · have hrej : Rejected false (granting 0 0) (oneSegment (pageSegment 1 0x400)) true :=
      Or.inr (Or.inr (Or.inr (Or.inl (by decide))))
    exact absurd ((h _ rfl).reported hrej) (by decide)
  · have hrej : Rejected false (granting (-12) 0) (oneSegment (pageSegment 2 0x400)) true :=
      Or.inr (Or.inr (Or.inr (Or.inr ⟨rfl, Or.inl (by decide)⟩)))
    exact absurd ((h _ rfl).reported hrej) (by decide)
  · exact nomatch (h _ rfl).freed mem_cons_self
  · have hreached : Reached false (granting 0 0) (oneSegment (pageSegment 2 0x1000)) := by
      unfold Reached
      decide
    have hwhen := (allTidy_program_iff hreached (by decide) (by decide) rfl).mp h _ rfl
    rcases hwhen with hneg | ⟨-, hfails | hfilled⟩
    · exact nomatch hneg
    · rcases hfails with herr | ⟨hpage, -⟩
      · exact nomatch herr
      · exact nomatch hpage
    · rcases hfilled ⟨0, pageSegment 2 0x1000⟩ (by decide) (by decide) with hnone | ⟨hpage, -⟩
      · exact nomatch hnone
      · exact nomatch hpage

end AbiEmu.Binfmt.XoutLoad
