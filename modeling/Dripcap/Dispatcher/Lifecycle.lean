import Dripcap.Dispatcher.Streams
import Dripcap.Library.Episode

/-!
# The life of a stream

The events of a stream are cut into incarnations, each of them ending with a `STREAM_END` event.
Every incarnation has script objects of its own, and these receive the data of its events.
-/

namespace Dripcap

namespace Streams

/-- An event of a stream with the packet and the layer it comes from. -/
structure StreamEvent where
  packet : ℕ
  layer : LayerPtr
  stream : PacketStream

namespace StreamEvent

def key (ev : StreamEvent) : Key := (ev.stream.ns, ev.stream.id)

def isEnd (ev : StreamEvent) : Bool := ev.stream.flag = .end

def data (ev : StreamEvent) : Object := ev.stream.data

end StreamEvent

/-- The data that the scripts of an incarnation receive if `evs` are the events of the stream from
its first one on: those up to the first `STREAM_END`, unless the stream begins with it. -/
def delivered : List StreamEvent → List Object
  | [] => []
  | ev :: evs =>
    if ev.isEnd then [] else (Episode.first StreamEvent.isEnd (ev :: evs)).map StreamEvent.data

/-- An incarnation that has begun: its stream, the position of its first event among the events of
the stream, and its script objects. -/
structure Incarnation where
  key : Key
  first : ℕ
  scripts : List ℕ

lemma delivered_singleton (ev : StreamEvent) :
    delivered [ev] = if ev.isEnd then [] else [ev.data] := by
  rw [delivered]
  split_ifs with h
  · rfl
  · rw [Episode.first, if_neg h]
    rfl

/-- Another event is received as long as there has been no `STREAM_END`. -/
lemma delivered_concat {evs : List StreamEvent} (hne : evs ≠ []) (ev : StreamEvent) :
    delivered (evs ++ [ev]) =
      if evs.any StreamEvent.isEnd then delivered evs else delivered evs ++ [ev.data] := by
  cases evs with
  | nil => exact absurd rfl hne
  | cons a evs =>
    rw [List.cons_append, delivered, delivered]
    cases ha : a.isEnd with
    | true => simp [ha]
    | false =>
      simp only [Bool.false_eq_true, if_false]
      rw [← List.cons_append, Episode.first_concat]
      split_ifs
      · rfl
      · rw [List.map_append]
        rfl

namespace State

/-- The event that a step takes from the list. -/
def events (s : State) (e : Event) (_ : State) : List StreamEvent :=
  match e, s.list with
  | .deliver _, (layer, net) :: _ => [⟨s.maxID, layer, net⟩]
  | _, _ => []

/-- The streams of packet `i` in a layer that a step finds or that the scripts produce. -/
def offered (loads : String → Bool) (i : ℕ) (layer : LayerPtr) (s : State) (e : Event)
    (_ : State) : List PacketStream :=
  match e, s.list with
  | .take layers, _ => if i = s.maxID + 1 then (findStreamsList ∅ layers).at layer else []
  | .deliver out, (layer', net) :: _ =>
    if i = s.maxID ∧ layer = layer' then (s.called loads net).flatMap out else []
  | _, _ => []

/-- The streams of packet `i` in a layer that have still to be gone through. -/
def rest (s : State) (i : ℕ) (layer : LayerPtr) : List PacketStream :=
  if s.busy = true ∧ i = s.maxID then
    (s.list.filter (·.1 = layer)).map Prod.snd ++ s.streamList.at layer
  else []

/-- The incarnations `incs` account for the script objects and for the table of streams, where
`evs` are the events of every stream so far. -/
structure Tracks (s : State) (evs : Key → List StreamEvent) (incs : List Incarnation) : Prop where
  /-- every script object belongs to one incarnation -/
  scripts : incs.flatMap Incarnation.scripts = List.range s.scripts.length
  starts : ∀ k, (incs.filter (·.key = k)).map Incarnation.first =
    Episode.starts StreamEvent.isEnd (evs k)
  received : ∀ inc ∈ incs, ∀ script ∈ inc.scripts,
    s.received script = delivered ((evs inc.key).drop inc.first)
  unused : ∀ script, s.scripts.length ≤ script → s.received script = []
  absent : ∀ k, s.streamCache.find k = none ↔ Episode.Closed StreamEvent.isEnd (evs k) = true
  running : ∀ k stream, s.streamCache.find k = some stream →
    (stream.loaded = true ∧ stream.started = true) ∧
      ∃ inc ∈ incs, inc.key = k ∧ inc.scripts = stream.dissectors ∧
        ((evs k).drop inc.first).any StreamEvent.isEnd = false
  ended : ∀ inc ∈ incs, ((evs inc.key).drop inc.first).any StreamEvent.isEnd = true ∨
    ∃ stream, s.streamCache.find inc.key = some stream ∧ stream.dissectors = inc.scripts
  tidy : s.streamCache.Tidy

variable {loads : String → Bool} {s s' : State} {evs : Key → List StreamEvent}
  {incs : List Incarnation}

lemma tracks_init : ({} : State).Tracks (fun _ => []) [] where
  scripts := rfl
  starts k := rfl
  received inc hinc := by cases hinc
  unused script _ := rfl
  absent k := by simp
  running k stream h := by cases h
  ended inc hinc := by cases hinc
  tidy := Cache.tidy_empty

/-- Only the script objects and the table of streams matter. -/
lemma Tracks.of_eq (h : s.Tracks evs incs) (hscripts : s'.scripts = s.scripts)
    (hreceived : s'.received = s.received) (hcache : s'.streamCache = s.streamCache) :
    s'.Tracks evs incs where
  scripts := hscripts ▸ h.scripts
  starts := h.starts
  received inc hinc script hs := hreceived ▸ h.received inc hinc script hs
  unused script hs := hreceived ▸ h.unused script (hscripts ▸ hs)
  absent := hcache ▸ h.absent
  running := hcache ▸ h.running
  ended := hcache ▸ h.ended
  tidy := hcache ▸ h.tidy

/-- A script object belongs to one incarnation only. -/
lemma Tracks.unique (h : s.Tracks evs incs) {inc inc' : Incarnation} (hinc : inc ∈ incs)
    (hinc' : inc' ∈ incs) {script : ℕ} (hs : script ∈ inc.scripts) (hs' : script ∈ inc'.scripts) :
    inc = inc' := by
  have hnodup : (incs.flatMap Incarnation.scripts).Nodup := h.scripts ▸ List.nodup_range
  have hdisjoint := (List.nodup_flatMap.mp hnodup).2
  by_contra hne
  have hsymm : Std.Symm (Function.onFun List.Disjoint Incarnation.scripts) :=
    ⟨fun _ _ hd _ ha hb => hd hb ha⟩
  exact hdisjoint.forall hinc hinc' hne hs hs'

lemma Tracks.first_lt (h : s.Tracks evs incs) {inc : Incarnation} (hinc : inc ∈ incs) :
    inc.first < (evs inc.key).length := by
  apply Episode.lt_of_mem_starts (p := StreamEvent.isEnd)
  rw [← h.starts]
  exact List.mem_map_of_mem (List.mem_filter.mpr ⟨hinc, by simp⟩)

lemma Tracks.script_lt (h : s.Tracks evs incs) {inc : Incarnation} (hinc : inc ∈ incs) {script : ℕ}
    (hs : script ∈ inc.scripts) : script < s.scripts.length := by
  have hmem : script ∈ incs.flatMap Incarnation.scripts := List.mem_flatMap.mpr ⟨inc, hinc, hs⟩
  rw [h.scripts] at hmem
  exact List.mem_range.mp hmem

/-- The events of the streams after one more. -/
def record (evs : Key → List StreamEvent) (ev : StreamEvent) (k : Key) : List StreamEvent :=
  evs k ++ if k = ev.key then [ev] else []

lemma record_self (evs : Key → List StreamEvent) (ev : StreamEvent) :
    record evs ev ev.key = evs ev.key ++ [ev] := by
  rw [record, if_pos rfl]

lemma record_other {ev : StreamEvent} {k : Key} (h : k ≠ ev.key) : record evs ev k = evs k := by
  rw [record, if_neg h, List.append_nil]

/-- What the scripts of an incarnation of the event's stream are to receive. -/
lemma drop_record {ev : StreamEvent} {n : ℕ} (h : n ≤ (evs ev.key).length) :
    (record evs ev ev.key).drop n = (evs ev.key).drop n ++ [ev] := by
  rw [record_self, List.drop_append_of_le_length h]

/-- An event of another stream, or one after the `STREAM_END` of an incarnation, is not for the
scripts of the incarnation. -/
lemma Tracks.delivered_record (h : s.Tracks evs incs) {inc : Incarnation} (hinc : inc ∈ incs)
    {ev : StreamEvent}
    (hend : inc.key = ev.key → ((evs inc.key).drop inc.first).any StreamEvent.isEnd = true) :
    delivered ((record evs ev inc.key).drop inc.first) =
      delivered ((evs inc.key).drop inc.first) := by
  by_cases hk : inc.key = ev.key
  · have hlt := h.first_lt hinc
    have hne : (evs inc.key).drop inc.first ≠ [] := by simpa using hlt
    have hend := hend hk
    rw [hk] at hlt hne hend
    rw [hk, drop_record hlt.le, delivered_concat hne, if_pos hend]
  · rw [record_other hk]

/-- What has ended has ended for good. -/
lemma Tracks.any_record (h : s.Tracks evs incs) {inc : Incarnation} (hinc : inc ∈ incs)
    (ev : StreamEvent) (hend : ((evs inc.key).drop inc.first).any StreamEvent.isEnd = true) :
    ((record evs ev inc.key).drop inc.first).any StreamEvent.isEnd = true := by
  by_cases hk : inc.key = ev.key
  · have hlt := h.first_lt hinc
    rw [hk] at hlt hend
    rw [hk, drop_record hlt.le, List.any_append, hend, Bool.true_or]
  · rw [record_other hk]
    exact hend

/-- What an event leaves of script objects, their data and the table. -/
lemma analyze_scripts (s : State) (layer : LayerPtr) (net : PacketStream)
    (out : ℕ → List PacketStream) : (s.analyze loads layer net out).scripts =
      (s.loadStream loads (net.ns, net.id)).2.scripts := by
  rw [analyze_eq, setCache_scripts, analyzeStreams_rest]

lemma loadStream_received (s : State) (k : Key) :
    (s.loadStream loads k).2.received = s.received := by
  simp only [loadStream]
  split_ifs
  · rfl
  · rfl

lemma loadStream_rest (s : State) (k : Key) :
    (s.loadStream loads k).2 = { s with scripts := (s.loadStream loads k).2.scripts } := by
  simp only [loadStream]
  split_ifs
  · rfl
  · rfl

lemma analyze_received (s : State) (layer : LayerPtr) (net : PacketStream)
    (out : ℕ → List PacketStream) (h : (s.called loads net).Nodup) (script : ℕ) :
    (s.analyze loads layer net out).received script =
      if script ∈ s.called loads net then s.received script ++ [net.data]
      else s.received script := by
  rw [analyze_eq, setCache_received, analyzeStreams_received _ _ h, loadStream_received]

lemma analyze_find (s : State) (ev : StreamEvent) (out : ℕ → List PacketStream) (k : Key) :
    (s.analyze loads ev.layer ev.stream out).streamCache.find k =
      if k = ev.key then
        if ev.isEnd then none
        else some { (s.loadStream loads ev.key).1 with started := true }
      else s.streamCache.find k := by
  rw [analyze_eq, setCache_streamCache, nextCache_find]
  simp only [StreamEvent.key, StreamEvent.isEnd, decide_eq_true_eq]

lemma analyze_tidy (h : s.streamCache.Tidy) (layer : LayerPtr) (net : PacketStream)
    (out : ℕ → List PacketStream) : (s.analyze loads layer net out).streamCache.Tidy := by
  rw [analyze_eq]
  exact nextCache_tidy h

variable (loads) in
lemma called_eq (s : State) (ev : StreamEvent) : s.called loads ev.stream =
    if ev.isEnd = true ∧ (s.loadStream loads ev.key).1.started = false then []
    else (s.loadStream loads ev.key).1.dissectors := by
  simp only [called, StreamEvent.isEnd, StreamEvent.key, decide_eq_true_eq]

/-- Without an entry every incarnation of a stream has ended. -/
lemma Tracks.ended_of_absent (h : s.Tracks evs incs) {inc : Incarnation} (hinc : inc ∈ incs)
    (hfind : s.streamCache.find inc.key = none) :
    ((evs inc.key).drop inc.first).any StreamEvent.isEnd = true := by
  rcases h.ended inc hinc with hend | ⟨stream, hfind', -⟩
  · exact hend
  · rw [hfind] at hfind'
    cases hfind'

/-- After an event the stream has an entry unless the event has been a `STREAM_END`. -/
lemma Tracks.absent_step (h : s.Tracks evs incs) (ev : StreamEvent) (out : ℕ → List PacketStream)
    (k : Key) : (s.analyze loads ev.layer ev.stream out).streamCache.find k = none ↔
      Episode.Closed StreamEvent.isEnd (record evs ev k) = true := by
  rw [analyze_find]
  by_cases hk : k = ev.key
  · subst hk
    rw [if_pos rfl, record_self, Episode.closed_concat]
    split_ifs with hend
    · simp [hend]
    · simp [hend]
  · rw [if_neg hk, record_other hk]
    exact h.absent k

/-- An event of a stream that has an entry is received by the scripts of the entry. -/
theorem Tracks.analyze_running (h : s.Tracks evs incs) (ev : StreamEvent)
    (out : ℕ → List PacketStream) {stream : Stream}
    (hfind : s.streamCache.find ev.key = some stream) :
    (s.analyze loads ev.layer ev.stream out).Tracks (record evs ev) incs := by
  obtain ⟨⟨hloaded, hstarted⟩, inc, hinc, hkey, hscripts, hopen⟩ := h.running _ _ hfind
  have hload : s.loadStream loads ev.key = (stream, s) := loadStream_of_loaded hfind hloaded
  have hcalled : s.called loads ev.stream = stream.dissectors := by
    rw [called_eq, hload, if_neg (by simp [hstarted])]
  have hnodup : (s.called loads ev.stream).Nodup := by
    have hall : (incs.flatMap Incarnation.scripts).Nodup := h.scripts ▸ List.nodup_range
    rw [hcalled, ← hscripts]
    exact (List.nodup_flatMap.mp hall).1 inc hinc
  have hlen : (s.analyze loads ev.layer ev.stream out).scripts = s.scripts := by
    rw [analyze_scripts]
    show (s.loadStream loads ev.key).2.scripts = _
    rw [hload]
  have hlt := h.first_lt hinc
  rw [hkey] at hlt
  refine ⟨hlen ▸ h.scripts, fun k => ?_, fun inc' hinc' script hs => ?_, fun script hs => ?_,
    h.absent_step ev out, fun k st hst => ?_, fun inc' hinc' => ?_, analyze_tidy h.tidy _ _ _⟩
  · rw [h.starts]
    by_cases hk : k = ev.key
    · subst hk
      have hnot : Episode.Closed StreamEvent.isEnd (evs ev.key) = false := by
        have hne : s.streamCache.find ev.key ≠ none := by simp [hfind]
        simpa using mt (h.absent ev.key).mpr hne
      rw [record_self, Episode.starts_concat, hnot]
      simp
    · rw [record_other hk]
  · rw [analyze_received _ _ _ _ hnodup, hcalled]
    have hne : (evs inc'.key).drop inc'.first ≠ [] := by
      simpa using h.first_lt hinc'
    by_cases hmem : script ∈ stream.dissectors
    · -- the script belongs to the running incarnation
      obtain rfl := h.unique hinc hinc' (hscripts ▸ hmem) hs
      rw [hkey] at hne
      rw [if_pos hmem, h.received inc hinc script hs, hkey, drop_record hlt.le,
        delivered_concat hne, hopen]
      rfl
    · rw [if_neg hmem, h.received inc' hinc' script hs, h.delivered_record hinc']
      -- an earlier incarnation of the same stream has ended
      intro hk
      rcases h.ended inc' hinc' with hend | ⟨stream', hfind', heq⟩
      · exact hend
      · rw [hk, hfind] at hfind'
        obtain rfl := Option.some.inj hfind'
        exact absurd (heq ▸ hs) hmem
  · rw [analyze_received _ _ _ _ hnodup, hcalled, if_neg]
    · exact h.unused script (hlen ▸ hs)
    · intro hmem
      rw [← hscripts] at hmem
      exact absurd (h.script_lt hinc hmem) (not_lt.mpr (hlen ▸ hs))
  · rw [analyze_find] at hst
    by_cases hk : k = ev.key
    · subst hk
      rw [if_pos rfl, hload] at hst
      split_ifs at hst with hend
      obtain rfl := Option.some.inj hst
      refine ⟨⟨hloaded, rfl⟩, inc, hinc, hkey, hscripts, ?_⟩
      rw [drop_record hlt.le, List.any_append, hopen]
      simp [hend]
    · rw [if_neg hk] at hst
      rw [record_other hk]
      exact h.running k st hst
  · rcases h.ended inc' hinc' with hany | ⟨stream', hfind', heq⟩
    · exact Or.inl (h.any_record hinc' ev hany)
    · rw [analyze_find]
      by_cases hk : inc'.key = ev.key
      · have hlt' := h.first_lt hinc'
        rw [hk] at hlt' hfind'
        rw [hk, drop_record hlt'.le, List.any_append, if_pos rfl, hload]
        cases hend : ev.isEnd with
        | true =>
          left
          simp [hend]
        | false =>
          right
          rw [hfind] at hfind'
          obtain rfl := Option.some.inj hfind'
          exact ⟨_, rfl, heq⟩
      · rw [if_neg hk]
        exact Or.inr ⟨stream', hfind', heq⟩

variable (loads) in
/-- The incarnation that begins with an event of a stream without an entry. -/
def newborn (s : State) (evs : Key → List StreamEvent) (k : Key) : Incarnation :=
  ⟨k, (evs k).length,
    List.range' s.scripts.length (load loads s.modules (s.streamDissectors k.1)).length⟩

variable (loads) in
lemma analyze_absent_scripts (ev : StreamEvent) (out : ℕ → List PacketStream)
    (hfind : s.streamCache.find ev.key = none) :
    (s.analyze loads ev.layer ev.stream out).scripts =
      s.scripts ++ load loads s.modules (s.streamDissectors ev.key.1) := by
  have hload : s.loadStream loads ev.key = _ := loadStream_of_absent hfind
  rw [analyze_scripts]
  show (s.loadStream loads ev.key).2.scripts = _
  rw [hload]

variable (loads) in
/-- An event of a stream without an entry begins a new incarnation with new script objects. -/
theorem Tracks.analyze_absent (h : s.Tracks evs incs) (ev : StreamEvent)
    (out : ℕ → List PacketStream) (hfind : s.streamCache.find ev.key = none) :
    (s.analyze loads ev.layer ev.stream out).Tracks (record evs ev)
      (incs ++ [s.newborn loads evs ev.key]) := by
  have hload : s.loadStream loads ev.key = _ := loadStream_of_absent hfind
  have hclosed := (h.absent ev.key).mp hfind
  have hscripts := s.analyze_absent_scripts loads ev out hfind
  have hcalled := s.called_eq loads ev
  rw [hload] at hcalled
  rw [newborn]
  generalize load loads s.modules (s.streamDissectors ev.key.1) = new at hload hscripts hcalled
  have hnodup : (s.called loads ev.stream).Nodup := by
    rw [hcalled]
    split_ifs
    · exact List.nodup_nil
    · exact List.nodup_range'
  have hnew : ∀ script ∈ s.called loads ev.stream,
      s.scripts.length ≤ script ∧ script < s.scripts.length + new.length := by
    intro script hmem
    rw [hcalled] at hmem
    split_ifs at hmem
    · cases hmem
    · exact List.mem_range'_1.mp hmem
  refine ⟨?_, fun k => ?_, fun inc hinc script hs => ?_, fun script hs => ?_,
    h.absent_step ev out, fun k st hst => ?_, fun inc hinc => ?_, analyze_tidy h.tidy _ _ _⟩
  · rw [List.flatMap_append, h.scripts, List.flatMap_singleton, hscripts, List.length_append,
      List.range_eq_range', List.range_eq_range', ← List.range'_append_1, Nat.zero_add]
  · rw [List.filter_append, List.map_append, h.starts]
    by_cases hk : k = ev.key
    · subst hk
      rw [record_self, Episode.starts_concat, hclosed]
      simp
    · have hk' : ¬ ev.key = k := fun heq => hk heq.symm
      rw [record_other hk]
      simp [hk']
  · rw [analyze_received _ _ _ _ hnodup]
    rcases List.mem_append.mp hinc with hinc | hinc
    · have hold : script ∉ s.called loads ev.stream := fun hmem =>
        not_le.mpr (h.script_lt hinc hs) (hnew script hmem).1
      rw [if_neg hold, h.received inc hinc script hs,
        h.delivered_record hinc fun hk => h.ended_of_absent hinc (hk ▸ hfind)]
    · obtain rfl := List.mem_singleton.mp hinc
      obtain ⟨hle, -⟩ := List.mem_range'_1.mp hs
      rw [drop_record le_rfl, List.drop_length, List.nil_append, delivered_singleton, hcalled,
        h.unused script hle]
      cases hend : ev.isEnd with
      | true => simp
      | false =>
        have hmem : script ∈ List.range' s.scripts.length new.length := hs
        simp [hmem, StreamEvent.data]
  · rw [hscripts, List.length_append] at hs
    rw [analyze_received _ _ _ _ hnodup, if_neg fun hmem => not_lt.mpr hs (hnew script hmem).2]
    exact h.unused script ((Nat.le_add_right _ _).trans hs)
  · rw [analyze_find] at hst
    by_cases hk : k = ev.key
    · subst hk
      rw [if_pos rfl, hload] at hst
      split_ifs at hst with hend
      obtain rfl := Option.some.inj hst
      refine ⟨⟨rfl, rfl⟩, _, List.mem_append_right _ (List.mem_singleton_self _), rfl, rfl, ?_⟩
      rw [drop_record le_rfl, List.drop_length]
      simpa using hend
    · rw [if_neg hk] at hst
      rw [record_other hk]
      obtain ⟨hst', inc, hinc, hinc'⟩ := h.running k st hst
      exact ⟨hst', inc, List.mem_append_left _ hinc, hinc'⟩
  · rcases List.mem_append.mp hinc with hinc | hinc
    · rcases h.ended inc hinc with hend | ⟨stream, hfind', heq⟩
      · exact Or.inl (h.any_record hinc ev hend)
      · rw [analyze_find, if_neg]
        · exact Or.inr ⟨stream, hfind', heq⟩
        · intro hk
          rw [hk, hfind] at hfind'
          cases hfind'
    · obtain rfl := List.mem_singleton.mp hinc
      rw [drop_record le_rfl, List.drop_length, analyze_find, if_pos rfl, hload]
      cases hend : ev.isEnd with
      | true =>
        left
        simp [hend]
      | false => exact Or.inr ⟨_, rfl, rfl⟩

/-- From `s` to `s'` new incarnations have begun, each of them with an event of its stream. -/
def Births (loads : String → Bool) (s s' : State) (evs : Key → List StreamEvent) (e : Event)
    (more : List Incarnation) : Prop :=
  ∀ inc ∈ more, (∃ ev ∈ events s e s', ev.key = inc.key) ∧ inc = s.newborn loads evs inc.key ∧
    s'.scripts = s.scripts ++ load loads s.modules (s.streamDissectors inc.key.1)

/-- A step without an event of a stream. -/
lemma Tracks.quiet {e : Event} (h : s.Tracks evs incs) (hevents : events s e s' = [])
    (hscripts : s'.scripts = s.scripts) (hreceived : s'.received = s.received)
    (hcache : s'.streamCache = s.streamCache) :
    ∃ more, s'.Tracks (fun k => evs k ++ (events s e s').filter (·.key = k)) (incs ++ more) ∧
      Births loads s s' evs e more := by
  refine ⟨[], ?_, fun inc hinc => by cases hinc⟩
  simp only [hevents, List.filter_nil, List.append_nil]
  exact h.of_eq hscripts hreceived hcache

/-- Every step is accounted for by the incarnations so far, or by these and a new one. -/
theorem Tracks.step {e : Event} (h : s.Tracks evs incs) (hs : s.step loads e = some s') :
    ∃ more, s'.Tracks (fun k => evs k ++ (events s e s').filter (·.key = k)) (incs ++ more) ∧
      Births loads s s' evs e more := by
  cases e with
  | deliver out =>
    obtain ⟨layer, net, list, hlist, rfl⟩ := deliver_cases hs
    have hevents : events s (.deliver out) ({ s with list := list }.analyze loads layer net out) =
        [⟨s.maxID, layer, net⟩] := by
      simp only [events, hlist]
    have hrecord : (fun k => evs k ++ (events s (.deliver out) ({ s with list := list }.analyze
        loads layer net out)).filter (·.key = k)) = record evs ⟨s.maxID, layer, net⟩ := by
      funext k
      simp only [hevents, record, List.filter_singleton]
      by_cases hk : k = StreamEvent.key ⟨s.maxID, layer, net⟩
      · simp [hk]
      · simp [hk, Ne.symm hk]
    rw [hrecord]
    have h' : { s with list := list }.Tracks evs incs := h.of_eq rfl rfl rfl
    cases hfind : s.streamCache.find (net.ns, net.id) with
    | some stream =>
      refine ⟨[], ?_, fun inc hinc => by cases hinc⟩
      rw [List.append_nil]
      exact h'.analyze_running ⟨s.maxID, layer, net⟩ out hfind
    | none =>
      refine ⟨[s.newborn loads evs (net.ns, net.id)],
        h'.analyze_absent loads ⟨s.maxID, layer, net⟩ out hfind, ?_⟩
      intro inc hinc
      obtain rfl := List.mem_singleton.mp hinc
      refine ⟨⟨_, hevents ▸ List.mem_singleton_self _, rfl⟩, rfl, ?_⟩
      exact { s with list := list }.analyze_absent_scripts loads ⟨s.maxID, layer, net⟩ out hfind
  | loadStreamDissector source namespaces =>
    obtain rfl := Option.some.inj hs
    exact h.quiet rfl rfl rfl rfl
  | loadModule name source =>
    obtain rfl := Option.some.inj hs
    exact h.quiet rfl rfl rfl rfl
  | take layers =>
    obtain ⟨-, rfl⟩ := take_cases hs
    exact h.quiet rfl rfl rfl rfl
  | round order =>
    obtain ⟨-, rfl⟩ := round_cases hs
    exact h.quiet rfl rfl rfl rfl
  | finish =>
    obtain ⟨-, rfl⟩ := finish_cases hs
    exact h.quiet rfl rfl rfl rfl

/-! ### The script objects of an incarnation -/

/-- The sources that have been registered for a name space, in this order. -/
def registered (es : List Event) (ns : String) : List String :=
  es.flatMap fun
    | .loadStreamDissector source namespaces => (namespaces.filter (· = ns)).map fun _ => source
    | _ => []

/-- The incarnation begins with the event `e` after `earlier`, which has led to `t`: this is the
event of its stream at the position `first`. Its script objects are new ones, one for every
registered source that loads. -/
structure Begins (loads : String → Bool) (earlier : List Event) (e : Event) (t s : State)
    (inc : Incarnation) : Prop where
  event : ∃ ev ∈ events t e t, ev.key = inc.key
  first : inc.first =
    ((Run.observe (step loads) events {} earlier).filter (·.key = inc.key)).length
  fresh : ∀ script ∈ inc.scripts, t.scripts.length ≤ script
  sources : inc.scripts.map (fun script => s.scripts[script]?) =
    ((registered earlier inc.key.1).filter fun source => loads source).map fun source =>
      some ⟨source, t.modules⟩

/-- Script objects stay, and streams are registered by `loadStreamDissector` alone. -/
lemma scripts_step {e : Event} (hs : s.step loads e = some s') :
    s.scripts <+: s'.scripts ∧ ∀ ns, s'.streamDissectors ns =
      s.streamDissectors ns ++ registered [e] ns := by
  cases e with
  | deliver out =>
    obtain ⟨layer, net, list, hlist, rfl⟩ := deliver_cases hs
    have hload : ∀ k, s.scripts <+: ({ s with list := list }.loadStream loads k).2.scripts := by
      intro k
      simp only [loadStream]
      split_ifs
      · exact List.prefix_rfl
      · exact List.prefix_append _ _
    refine ⟨?_, fun ns => ?_⟩
    · rw [analyze_scripts]
      exact hload _
    · rw [analyze_eq, analyzeStreams_rest, loadStream_rest]
      exact (List.append_nil _).symm
  | loadStreamDissector source namespaces =>
    obtain rfl := Option.some.inj hs
    refine ⟨List.prefix_rfl, fun ns => ?_⟩
    rw [registered, List.flatMap_singleton]
  | loadModule name source =>
    obtain rfl := Option.some.inj hs
    exact ⟨List.prefix_rfl, fun ns => (List.append_nil _).symm⟩
  | take layers =>
    obtain ⟨-, rfl⟩ := take_cases hs
    exact ⟨List.prefix_rfl, fun ns => (List.append_nil _).symm⟩
  | round order =>
    obtain ⟨-, rfl⟩ := round_cases hs
    exact ⟨List.prefix_rfl, fun ns => (List.append_nil _).symm⟩
  | finish =>
    obtain ⟨-, rfl⟩ := finish_cases hs
    exact ⟨List.prefix_rfl, fun ns => (List.append_nil _).symm⟩

/-! ### No event is lost, repeated or moved -/

/-- The events of packet `i` in a layer. -/
def eventsAt (i : ℕ) (layer : LayerPtr) (evs : List StreamEvent) : List PacketStream :=
  (evs.filter fun ev => ev.packet = i ∧ ev.layer = layer).map StreamEvent.stream

/-- Between two packets nothing is left to do. -/
def Tidied (s : State) : Prop := s.busy = false → s.list = []

/-- Going through the layers in any order keeps the order within a layer. -/
lemma filter_round (list : StreamList) {order : List LayerPtr} (h : order.Perm list.keys)
    (layer : LayerPtr) :
    ((order.flatMap fun layer => (list.at layer).map fun net => (layer, net)).filter
      (·.1 = layer)).map Prod.snd = list.at layer := by
  have hone : ∀ layer', (((list.at layer').map fun net => (layer', net)).filter
      (·.1 = layer)).map Prod.snd = if layer' = layer then list.at layer else [] := by
    intro layer'
    split_ifs with heq
    · subst heq
      simp [List.filter_map, Function.comp_def]
    · simp [List.filter_map, Function.comp_def, heq]
  have hall : ∀ order : List LayerPtr, order.Nodup →
      ((order.flatMap fun layer => (list.at layer).map fun net => (layer, net)).filter
        (·.1 = layer)).map Prod.snd = if layer ∈ order then list.at layer else [] := by
    intro order hnodup
    induction order with
    | nil => rfl
    | cons a order ih =>
      obtain ⟨ha, horder⟩ := List.nodup_cons.mp hnodup
      rw [List.flatMap_cons, List.filter_append, List.map_append, hone, ih horder]
      by_cases heq : a = layer
      · subst heq
        rw [if_pos rfl, if_neg ha, if_pos List.mem_cons_self, List.append_nil]
      · rw [if_neg heq, List.nil_append]
        simp only [List.mem_cons, Ne.symm heq, false_or]
  rw [hall order (h.nodup_iff.mpr list.keys_nodup)]
  split_ifs with hmem
  · rfl
  · have hnone : list.lookup layer = none := by
      rw [AList.lookup_eq_none, AList.mem_keys]
      exact fun hkey => hmem (h.mem_iff.mpr hkey)
    rw [StreamList.at, hnone]
    rfl

lemma analyze_busy (s : State) (layer : LayerPtr) (net : PacketStream)
    (out : ℕ → List PacketStream) : (s.analyze loads layer net out).busy = s.busy := by
  rw [analyze_eq, analyzeStreams_rest, loadStream_rest]
  rfl

lemma analyze_maxID (s : State) (layer : LayerPtr) (net : PacketStream)
    (out : ℕ → List PacketStream) : (s.analyze loads layer net out).maxID = s.maxID := by
  rw [analyze_eq, analyzeStreams_rest, loadStream_rest]
  rfl

variable (loads) in
/-- An event changes nothing about the work for the present packet but for what the scripts
produce. -/
lemma analyze_rest (s : State) (ev : StreamEvent) (out : ℕ → List PacketStream) (i : ℕ)
    (layer : LayerPtr) : (s.analyze loads ev.layer ev.stream out).rest i layer = s.rest i layer ++
      if s.busy = true ∧ i = s.maxID ∧ layer = ev.layer then
        (s.called loads ev.stream).flatMap out
      else [] := by
  have hrest : s.analyze loads ev.layer ev.stream out =
      { s with
        scripts := (s.analyze loads ev.layer ev.stream out).scripts
        received := (s.analyze loads ev.layer ev.stream out).received
        streamCache := (s.analyze loads ev.layer ev.stream out).streamCache
        streamList := (s.analyze loads ev.layer ev.stream out).streamList } := by
    rw [analyze_eq, analyzeStreams_rest, loadStream_rest]
    rfl
  have hat : (s.analyze loads ev.layer ev.stream out).streamList.at layer =
      s.streamList.at layer ++
        if layer = ev.layer then (s.called loads ev.stream).flatMap out else [] := by
    rw [analyze_eq, setCache_streamList, analyzeStreams_at, loadStream_rest]
  rw [hrest]
  simp only [rest, hat]
  by_cases hguard : s.busy = true ∧ i = s.maxID
  · simp only [hguard, and_self, true_and, if_true, List.append_assoc]
  · have hguard' : ¬ (s.busy = true ∧ i = s.maxID ∧ layer = ev.layer) :=
      fun h => hguard ⟨h.1, h.2.1⟩
    rw [if_neg hguard, if_neg hguard, if_neg hguard']
    rfl

/-- What is left after a step and what it has done are what was left before and what it has
found. -/
theorem rest_step {e : Event} (h : s.Tidied) (hs : s.step loads e = some s') (i : ℕ)
    (layer : LayerPtr) : eventsAt i layer (events s e s') ++ s'.rest i layer =
      s.rest i layer ++ offered loads i layer s e s' := by
  cases e with
  | deliver out =>
    obtain ⟨layer', net, list, hlist, rfl⟩ := deliver_cases hs
    have hbusy : s.busy = true := by
      by_contra hidle
      rw [h (by simpa using hidle)] at hlist
      cases hlist
    have hload : ({ s with list := list }.loadStream loads (net.ns, net.id)).1 =
        (s.loadStream loads (net.ns, net.id)).1 := by
      simp only [loadStream]
      split_ifs
      · rfl
      · rfl
    have hcalled : { s with list := list }.called loads net = s.called loads net := by
      simp only [called, hload]
    have hrest := { s with list := list }.analyze_rest loads ⟨s.maxID, layer', net⟩ out i layer
    simp only [hcalled] at hrest
    rw [hrest]
    simp only [events, offered, hlist, eventsAt, rest, hbusy, true_and]
    by_cases hi : i = s.maxID
    · by_cases hl : layer = layer'
      · simp [hi, hl]
      · simp [hi, hl, Ne.symm hl]
    · simp [hi, Ne.symm hi]
  | loadStreamDissector source namespaces =>
    obtain rfl := Option.some.inj hs
    simp [events, offered, eventsAt, rest]
  | loadModule name source =>
    obtain rfl := Option.some.inj hs
    simp [events, offered, eventsAt, rest]
  | take layers =>
    obtain ⟨hbusy, rfl⟩ := take_cases hs
    simp [events, offered, eventsAt, rest, hbusy, h hbusy]
  | round order =>
    obtain ⟨⟨hbusy, hlist, hperm⟩, rfl⟩ := round_cases hs
    have hempty : (∅ : StreamList).at layer = [] := rfl
    simp only [events, offered, eventsAt, rest, hbusy, hlist, filter_round _ hperm, hempty,
      List.filter_nil, List.map_nil, List.nil_append, List.append_nil]
  | finish =>
    obtain ⟨⟨hlist, hkeys⟩, rfl⟩ := finish_cases hs
    have hat : s.streamList.at layer = [] := by
      have hnone : s.streamList.lookup layer = none := by
        rw [AList.lookup_eq_none, AList.mem_keys, hkeys]
        exact List.not_mem_nil
      rw [StreamList.at, hnone]
      rfl
    simp [events, offered, eventsAt, rest, hlist, hat]

lemma Tidied.step {e : Event} (h : s.Tidied) (hs : s.step loads e = some s') : s'.Tidied := by
  cases e with
  | deliver out =>
    obtain ⟨layer, net, list, hlist, rfl⟩ := deliver_cases hs
    intro hidle
    rw [analyze_busy] at hidle
    rw [h hidle] at hlist
    cases hlist
  | loadStreamDissector source namespaces =>
    obtain rfl := Option.some.inj hs
    exact h
  | loadModule name source =>
    obtain rfl := Option.some.inj hs
    exact h
  | take layers =>
    obtain ⟨-, rfl⟩ := take_cases hs
    intro hidle
    cases hidle
  | round order =>
    obtain ⟨⟨hbusy, -, -⟩, rfl⟩ := round_cases hs
    intro hidle
    rw [hbusy] at hidle
    cases hidle
  | finish =>
    obtain ⟨⟨hlist, -⟩, rfl⟩ := finish_cases hs
    exact fun _ => hlist

/-- Events bear the number of the present packet, which only grows. -/
lemma maxID_step {e : Event} (hs : s.step loads e = some s') :
    s.maxID ≤ s'.maxID ∧ ∀ ev ∈ events s e s', ev.packet = s.maxID := by
  cases e with
  | deliver out =>
    obtain ⟨layer, net, list, hlist, rfl⟩ := deliver_cases hs
    refine ⟨(analyze_maxID { s with list := list } layer net out).ge, ?_⟩
    simp [events, hlist]
  | loadStreamDissector source namespaces =>
    obtain rfl := Option.some.inj hs
    exact ⟨le_rfl, by simp [events]⟩
  | loadModule name source =>
    obtain rfl := Option.some.inj hs
    exact ⟨le_rfl, by simp [events]⟩
  | take layers =>
    obtain ⟨-, rfl⟩ := take_cases hs
    exact ⟨Nat.le_succ _, by simp [events]⟩
  | round order =>
    obtain ⟨-, rfl⟩ := round_cases hs
    exact ⟨le_rfl, by simp [events]⟩
  | finish =>
    obtain ⟨-, rfl⟩ := finish_cases hs
    exact ⟨le_rfl, by simp [events]⟩

/-! ### Whole runs -/

/-- What the run `es` has done to the streams. -/
structure Lifecycle (loads : String → Bool) (es : List Event) (s : State)
    (incs : List Incarnation) : Prop where
  /-- the events of the streams come in the order of the packets -/
  sorted : ((Run.observe (step loads) events {} es).map StreamEvent.packet).Pairwise (· ≤ ·)
  /-- in every layer of every packet they are what was found there and what scripts have added, in
  this order and up to what has still to be gone through -/
  layerwise : ∀ i layer, eventsAt i layer (Run.observe (step loads) events {} es) ++ s.rest i layer =
    Run.observe (step loads) (offered loads i layer) {} es
  /-- an incarnation begins with the first event and after every `STREAM_END` -/
  starts : ∀ k, (incs.filter (·.key = k)).map Incarnation.first =
    Episode.starts StreamEvent.isEnd
      ((Run.observe (step loads) events {} es).filter (·.key = k))
  /-- every script object belongs to one incarnation of one stream -/
  scripts : incs.flatMap Incarnation.scripts = List.range s.scripts.length
  /-- which it has got at its first event -/
  begins : ∀ inc ∈ incs, ∃ earlier e t, earlier ++ [e] <+: es ∧
    Run.run (step loads) {} earlier = some t ∧ Begins loads earlier e t s inc
  received : ∀ inc ∈ incs, ∀ script ∈ inc.scripts, s.received script =
    delivered (((Run.observe (step loads) events {} es).filter (·.key = inc.key)).drop inc.first)
  cache : ∀ k, (s.streamCache.find k).isSome = true ↔
    ∃ ev ∈ ((Run.observe (step loads) events {} es).filter (·.key = k)).getLast?,
      ev.stream.flag ≠ .end
  tidy : s.streamCache.Tidy

variable {es : List Event}

lemma tidied_run (hrun : Run.run (step loads) {} es = some s) : s.Tidied :=
  Run.run_invariant (fun _ => rfl) (fun _ _ _ h hs => h.step hs) hrun

/-- The positions of what has been appended. -/
lemma map_getElem?_append {α : Type} (l l' : List α) :
    (List.range' l.length l'.length).map (fun i => (l ++ l')[i]?) = l'.map some := by
  apply List.ext_getElem
  · simp
  · intro i hi hi'
    have hlt : i < l'.length := by simpa using hi'
    simp [hlt]

lemma registered_run (hrun : Run.run (step loads) {} es = some s) (ns : String) :
    s.streamDissectors ns = registered es ns := by
  refine Run.run_induction (motive := fun es s => s.streamDissectors ns = registered es ns)
    rfl ?_ hrun
  intro es s e s' _ ih hs
  rw [(scripts_step hs).2 ns, ih, registered, registered, registered, List.flatMap_append]

lemma Births.begins {e : Event} {more : List Incarnation}
    (h : Births loads s s' (fun k => (Run.observe (step loads) events {} es).filter (·.key = k)) e more)
    (hrun : Run.run (step loads) {} es = some s) {inc : Incarnation} (hinc : inc ∈ more) :
    Begins loads es e s s' inc := by
  obtain ⟨hevent, hnewborn, hscripts⟩ := h inc hinc
  have hfirst := congrArg Incarnation.first hnewborn
  have hnew := congrArg Incarnation.scripts hnewborn
  refine ⟨hevent, hfirst, fun script hmem => ?_, ?_⟩
  · rw [hnew] at hmem
    exact (List.mem_range'_1.mp hmem).1
  · have hload : (load loads s.modules (s.streamDissectors inc.key.1)).map some =
        ((s.streamDissectors inc.key.1).filter fun source => loads source).map fun source =>
          some ⟨source, s.modules⟩ := by
      rw [load, List.map_map]
      rfl
    rw [hnew, hscripts, ← registered_run hrun, ← hload]
    exact map_getElem?_append _ _

/-- The script objects of an incarnation stay what they are. -/
lemma Begins.mono {earlier : List Event} {e : Event} {t : State} {inc : Incarnation}
    (h : Begins loads earlier e t s inc) (hscripts : s.scripts <+: s'.scripts) :
    Begins loads earlier e t s' inc := by
  refine ⟨h.event, h.first, h.fresh, ?_⟩
  rw [← h.sources]
  apply List.map_congr_left
  intro script hmem
  have hsome : s.scripts[script]? ∈ inc.scripts.map fun script => s.scripts[script]? :=
    List.mem_map_of_mem hmem
  rw [h.sources] at hsome
  obtain ⟨source, -, hsource⟩ := List.mem_map.mp hsome
  obtain ⟨hlt, -⟩ := List.getElem?_eq_some_iff.mp hsource.symm
  rw [List.prefix_iff_getElem?.mp hscripts script hlt, List.getElem?_eq_getElem hlt]

lemma tracks_run (hrun : Run.run (step loads) {} es = some s) : ∃ incs,
    s.Tracks (fun k => (Run.observe (step loads) events {} es).filter (·.key = k)) incs ∧
      ∀ inc ∈ incs, ∃ earlier e t, earlier ++ [e] <+: es ∧
        Run.run (step loads) {} earlier = some t ∧ Begins loads earlier e t s inc := by
  refine Run.run_induction (motive := fun es s => ∃ incs,
    s.Tracks (fun k => (Run.observe (step loads) events {} es).filter (·.key = k)) incs ∧
      ∀ inc ∈ incs, ∃ earlier e t, earlier ++ [e] <+: es ∧
        Run.run (step loads) {} earlier = some t ∧ Begins loads earlier e t s inc)
    ⟨[], tracks_init, fun inc hinc => by cases hinc⟩ ?_ hrun
  rintro es s e s' hes ⟨incs, h, hbegins⟩ hs
  obtain ⟨more, h', hbirths⟩ := h.step hs
  refine ⟨incs ++ more, ?_, fun inc hinc => ?_⟩
  · simpa only [Run.observe_concat events hes hs, List.filter_append] using h'
  · rcases List.mem_append.mp hinc with hinc | hinc
    · obtain ⟨earlier, e', t, hprefix, ht, hbegin⟩ := hbegins inc hinc
      exact ⟨earlier, e', t, hprefix.trans (List.prefix_append es [e]), ht,
        hbegin.mono (scripts_step hs).1⟩
    · exact ⟨es, e, s, List.prefix_rfl, hes, hbirths.begins hes hinc⟩

lemma sorted_run (hrun : Run.run (step loads) {} es = some s) :
    (∀ ev ∈ Run.observe (step loads) events {} es, ev.packet ≤ s.maxID) ∧
      ((Run.observe (step loads) events {} es).map StreamEvent.packet).Pairwise (· ≤ ·) := by
  refine Run.run_induction (motive := fun es s =>
    (∀ ev ∈ Run.observe (step loads) events {} es, ev.packet ≤ s.maxID) ∧
      ((Run.observe (step loads) events {} es).map StreamEvent.packet).Pairwise (· ≤ ·))
    ⟨by simp [Run.observe], List.Pairwise.nil⟩ ?_ hrun
  rintro es s e s' hes ⟨hle, hpair⟩ hs
  obtain ⟨hmono, hnew⟩ := maxID_step hs
  rw [Run.observe_concat events hes hs]
  constructor
  · intro ev hev
    rcases List.mem_append.mp hev with hev | hev
    · exact (hle ev hev).trans hmono
    · exact (hnew ev hev).le.trans hmono
  · rw [List.map_append, List.pairwise_append]
    refine ⟨hpair, ?_, ?_⟩
    · rw [List.pairwise_map]
      apply List.pairwise_of_forall_mem_list
      intro ev hev ev' hev'
      rw [hnew ev hev, hnew ev' hev']
    · intro i hi j hj
      obtain ⟨ev, hev, rfl⟩ := List.mem_map.mp hi
      obtain ⟨ev', hev', rfl⟩ := List.mem_map.mp hj
      rw [hnew ev' hev']
      exact hle ev hev

lemma layerwise_run (hrun : Run.run (step loads) {} es = some s) (i : ℕ) (layer : LayerPtr) :
    eventsAt i layer (Run.observe (step loads) events {} es) ++ s.rest i layer =
      Run.observe (step loads) (offered loads i layer) {} es := by
  refine Run.run_induction (motive := fun es s =>
    eventsAt i layer (Run.observe (step loads) events {} es) ++ s.rest i layer =
      Run.observe (step loads) (offered loads i layer) {} es) rfl ?_ hrun
  intro es s e s' hes ih hs
  have happend : ∀ evs evs', eventsAt i layer (evs ++ evs') =
      eventsAt i layer evs ++ eventsAt i layer evs' := by
    intro evs evs'
    rw [eventsAt, List.filter_append, List.map_append]
    rfl
  rw [Run.observe_concat events hes hs, Run.observe_concat (offered loads i layer) hes hs, happend,
    List.append_assoc, rest_step (tidied_run hes) hs, ← List.append_assoc, ih]

/-- However the scripts answer and the layers are ordered, every incarnation of a stream has script
objects of its own, which receive its events and nothing else, and the table holds the streams that
have not ended. -/
theorem streams_lifecycle (hrun : Run.run (step loads) {} es = some s) :
    ∃ incs, Lifecycle loads es s incs := by
  obtain ⟨incs, h, hbegins⟩ := tracks_run hrun
  refine ⟨incs, (sorted_run hrun).2, layerwise_run hrun, h.starts, h.scripts, hbegins, h.received,
    fun k => ?_, h.tidy⟩
  have habsent := h.absent k
  rw [Option.isSome_iff_ne_none, Ne, habsent, Episode.Closed]
  cases ((Run.observe (step loads) events {} es).filter (·.key = k)).getLast? with
  | none => simp
  | some ev => simp [StreamEvent.isEnd]

/-- Two packets with events of one stream, which ends in the first packet and begins anew in the
second one. -/
def twiceRun : List Event :=
  let net (flag : StreamFlag) (n : ℤ) : PacketStream := ⟨"", "tcp", "1", .integer n, flag⟩
  [.loadStreamDissector "tcp.es" ["tcp"],
    .take [("", .mk 0 [net .noop 1, net .end 2] [])], .round [0], .deliver fun _ => [],
    .deliver fun _ => [], .round [0], .finish,
    .take [("", .mk 1 [] [("", .mk 2 [net .noop 3] [])])], .round [1, 2], .deliver fun _ => [],
    .round [2], .finish]

theorem streams_lifecycle_twice : ∃ s : State,
    Run.run (step fun _ => true) {} twiceRun = some s ∧ s.scripts.length = 2 ∧
    s.received 0 = [.integer 1, .integer 2] ∧ s.received 1 = [.integer 3] ∧
    ∃ incs, Lifecycle (fun _ => true) twiceRun s incs :=
  ⟨_, rfl, rfl, rfl, rfl, streams_lifecycle rfl⟩

end State

end Streams

end Dripcap
