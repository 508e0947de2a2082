import Orchestrator.Digests

namespace Orchestrator
open Concurrency Async Progress
set_option autoImplicit true

/-- The names that `TaskCreateRequest` accepts. -/
def Accepted (projectName : String) : Prop := 1 ≤ projectName.length ∧ projectName.length ≤ 128

/-- No NUL character of the pair could be taken for the separator: the name has none after its first
character, and the requirement none so early that what comes before it makes a name. -/
def Unambiguous (projectName requirement : String) : Prop :=
  '\x00' ∉ projectName.toList.tail ∧
    '\x00' ∉ requirement.toList.take (128 - projectName.length)

/-- Two ways to split a text at a separator: one of the first parts contains the other and the
separator after it. -/
theorem append_cons_cases {a b c d : List α} {x : α} (h : a ++ x :: b = c ++ x :: d) :
    (a = c ∧ b = d) ∨ (∃ e, a = c ++ x :: e ∧ d = e ++ x :: b) ∨
      ∃ e, c = a ++ x :: e ∧ b = e ++ x :: d := by
  obtain ⟨e, hc, hb⟩ | ⟨e, ha, hd⟩ := List.append_eq_append_iff.1 h
  · cases e with
    | nil =>
      rw [List.append_nil] at hc
      exact .inl ⟨hc.symm, (List.cons.inj hb).2⟩
    | cons y e =>
      obtain ⟨rfl, rfl⟩ := List.cons.inj hb
      exact .inr (.inr ⟨e, hc, rfl⟩)
  · cases e with
    | nil =>
      rw [List.append_nil] at ha
      exact .inl ⟨ha, (List.cons.inj hd).2.symm⟩
    | cons y e =>
      obtain ⟨rfl, rfl⟩ := List.cons.inj hd
      exact .inr (.inl ⟨e, ha, rfl⟩)

section
variable {S : Setup Event} {p r p' r' : String}

theorem digestKey_eq_iff (hS : Function.Injective S.sha256) : digestKey S p r = digestKey S p' r' ↔
    p.toList ++ '\x00' :: r.toList = p'.toList ++ '\x00' :: r'.toList := by
  rw [digestKey, digestKey, hS.eq_iff, ← String.toList_inj]
  simp only [String.toList_append, List.append_assoc]
  exact Iff.rfl

theorem Unambiguous.pair (hS : Function.Injective S.sha256) (h : Unambiguous p r)
    (hp' : Accepted p') (he : digestKey S p r = digestKey S p' r') : p' = p ∧ r' = r := by
  obtain ⟨hp, hr⟩ | ⟨e, hp, -⟩ | ⟨e, hp, hr⟩ := append_cons_cases ((digestKey_eq_iff hS).1 he)
  · exact ⟨String.toList_inj.1 hp.symm, String.toList_inj.1 hr.symm⟩
  · exfalso
    apply h.1
    have hne : p'.toList ≠ [] := by
      intro hn
      have hlen := hp'.1
      rw [← String.length_toList, hn] at hlen
      exact absurd hlen (by decide)
    obtain ⟨c, cs, hcs⟩ := List.exists_cons_of_ne_nil hne
    rw [hp, hcs, List.cons_append, List.tail_cons]
    exact List.mem_append_right _ (List.mem_cons_self ..)
  · exfalso
    apply h.2
    have hlen := hp'.2
    rw [← String.length_toList, hp, List.length_append, List.length_cons,
      String.length_toList] at hlen
    rw [hr, List.take_append, List.mem_append]
    right
    obtain ⟨k, hk⟩ : ∃ k, 128 - p.length - e.length = k + 1 :=
      ⟨128 - p.length - e.length - 1, by omega⟩
    rw [hk, List.take_succ_cons]
    exact List.mem_cons_self ..

/-- Where the condition fails, another accepted pair has the same key. -/
theorem exists_collision (hS : Function.Injective S.sha256) (hp : Accepted p)
    (h : ¬Unambiguous p r) : ∃ p' r', Accepted p' ∧ digestKey S p r = digestKey S p' r' ∧
      ¬(p' = p ∧ r' = r) := by
  rw [Unambiguous, not_and_or, not_not, not_not] at h
  rcases h with h | h
  · obtain ⟨c, cs, hcs⟩ : ∃ c cs, p.toList = c :: cs := by
      cases hl : p.toList with
      | nil =>
        rw [hl] at h
        cases h
      | cons c cs => exact ⟨c, cs, rfl⟩
    rw [hcs, List.tail_cons] at h
    obtain ⟨a, b, hab⟩ := List.append_of_mem h
    have hlen : p.length = a.length + b.length + 2 := by
      rw [← String.length_toList, hcs, hab, List.length_cons, List.length_append, List.length_cons]
      omega
    have hname : (String.ofList (c :: a)).length = a.length + 1 := by
      rw [String.length_ofList, List.length_cons]
    refine ⟨String.ofList (c :: a), String.ofList (b ++ '\x00' :: r.toList), ?_, ?_, ?_⟩
    · have hp := hp.2
      rw [Accepted, hname]
      omega
    · rw [digestKey_eq_iff hS, String.toList_ofList, String.toList_ofList, hcs, hab,
        List.cons_append, List.cons_append, List.append_assoc, List.cons_append]
    · rintro ⟨he, -⟩
      rw [he] at hname
      omega
  · obtain ⟨a, b, hab⟩ := List.append_of_mem h
    have hr : r.toList = a ++ '\x00' :: (b ++ r.toList.drop (128 - p.length)) := by
      conv_lhs => rw [← List.take_append_drop (128 - p.length) r.toList, hab]
      rw [List.append_assoc, List.cons_append]
    have hlen : a.length + 1 ≤ 128 - p.length := by
      have htake := congrArg List.length hab
      rw [List.length_take, List.length_append, List.length_cons] at htake
      omega
    have hname : (String.ofList (p.toList ++ '\x00' :: a)).length = p.length + a.length + 1 := by
      rw [String.length_ofList, List.length_append, List.length_cons, String.length_toList]
      omega
    refine ⟨String.ofList (p.toList ++ '\x00' :: a),
      String.ofList (b ++ r.toList.drop (128 - p.length)), ?_, ?_, ?_⟩
    · have hp := hp.1
      rw [Accepted, hname]
      omega
    · rw [digestKey_eq_iff hS, String.toList_ofList, String.toList_ofList, List.append_assoc,
        List.cons_append, ← hr]
    · rintro ⟨he, -⟩
      rw [he] at hname
      omega

end

/-- What a request has found so far: the id that its digest names, and the record of that id. -/
inductive Search where
  | nothing
  | named (h id : String)
  | found (h : String) (t : Task)

section
variable [TaskJson Text]

def seeks : Monitor (Cmd Text Event) Cmd.Answer Search where
  init := .nothing
  cmd d c r :=
    match c, r, d with
    | .getDigest h, .ok (some id), _ => .named h id
    | .get id, .ok (some x), .named h id' =>
      match parse x with
      | some t => if id = id' then .found h t else .nothing
      | none => .nothing
    | _, _, d => d
  abort d _ _ := d

/-- The new record that a step stores, if the key is free. -/
def offers : SysLabel Text Event → Option Text
  | .cmd _ (.setNx _ x) _ | .abort _ (.setNx _ x) _ => some x
  | _ => none

/-- New tasks have the names that requests have. -/
def named : Filter Text Event := fun _ _ l _ =>
  ∀ x ∈ offers l, ∀ t : Task, parse x = some t → Accepted t.projectName

/-- Records stay, and keep their identity. -/
def Persists (w w' : World Text Event) : Prop :=
  ∀ id t, w.redis.record id = some t → ∃ u, w'.redis.record id = some u ∧ u.SameTask t

/-- The record of this id has the digest `h`, and a name that a request can have. -/
def Answers (S : Setup Event) (w : World Text Event) (h id : String) : Prop :=
  ∃ t, w.redis.record id = some t ∧ t.digest S = h

/-- What the digests name, and what the requests have found, is as the digest says. -/
structure Consistent (S : Setup Event) (tr : List (SysLabel Text Event)) (w : World Text Event)
    (ds : Nat → Progress) : Prop where
  keyed : ∀ id t, w.redis.record id = some t → t.taskId = id ∧ Accepted t.projectName
  queued : ∀ t ∈ w.redis.queued, Stands w t
  inHand : ∀ i t, (ds i).task = some t → Stands w t
  names : ∀ h id, w.redis.digests h = some id → Answers S w h id
  pending : ∀ i h id, seeks.read i tr = .named h id → Answers S w h id
  found : ∀ i h t, seeks.read i tr = .found h t → t.digest S = h ∧ Accepted t.projectName

section
variable {S : Setup Event} {sp : Kind → World Text Event → World Text Event → Prop}
  {ex : Kind → Except Exc Returned → World Text Event → World Text Event → Option Kind → Prop}
  {tr : List (SysLabel Text Event)} {w w' : World Text Event} {l : SysLabel Text Event} {i j : Nat}

theorem seeks_named {c : Cmd Text Event} {r : c.Answer} {h id : String}
    (ha : (orchestrator Text S sp ex).Answer i c r w w' l)
    (hl : seeks.read i (l :: tr) = .named h id) :
    seeks.read i tr = .named h id ∨ w.redis.digests h = some id := by
  cases ha with
  | abort _ =>
    rw [Monitor.read, if_pos rfl] at hl
    exact .inl hl
  | cmd hx =>
    rw [Monitor.read, if_pos rfl] at hl
    cases c with
    | getDigest h' =>
      obtain ⟨rfl, -⟩ := hx
      cases hd : w.redis.digests h' with
      | none =>
        rw [hd] at hl
        exact .inl hl
      | some id' =>
        rw [hd] at hl
        cases hl
        exact .inr hd
    | get id' =>
      left
      rcases r with e | _ | x
      · exact hl
      · exact hl
      · cases hs : seeks.read i tr with
        | named h' id'' =>
          rw [hs] at hl
          simp only [seeks] at hl
          split at hl
          · split at hl <;> cases hl
          · cases hl
        | _ =>
          rw [hs] at hl
          exact hl
    | _ => exact .inl hl

theorem seeks_found {c : Cmd Text Event} {r : c.Answer} {h : String} {t : Task}
    (ha : (orchestrator Text S sp ex).Answer i c r w w' l)
    (hl : seeks.read i (l :: tr) = .found h t) :
    seeks.read i tr = .found h t ∨
      ∃ id, seeks.read i tr = .named h id ∧ w.redis.record id = some t := by
  cases ha with
  | abort _ =>
    rw [Monitor.read, if_pos rfl] at hl
    exact .inl hl
  | cmd hx =>
    rw [Monitor.read, if_pos rfl] at hl
    cases c with
    | getDigest h' =>
      left
      rcases r with e | _ | id
      · exact hl
      · exact hl
      · cases hl
    | get id' =>
      obtain ⟨rfl, -⟩ := hx
      cases hx : w.redis.tasks.lookup id' with
      | none =>
        rw [hx] at hl
        exact .inl hl
      | some x =>
        rw [hx] at hl
        cases hs : seeks.read i tr with
        | named h' id'' =>
          rw [hs] at hl
          simp only [seeks] at hl
          split at hl
          · rename_i u hu
            split at hl
            · rename_i hid
              cases hl
              exact .inr ⟨id'', rfl, by rw [Redis.record, ← hid, hx, Option.bind_some, hu]⟩
            · cases hl
          · cases hl
        | _ =>
          rw [hs] at hl
          exact .inl hl
    | _ => exact .inl hl

theorem seeks_other {c : Cmd Text Event} {r : c.Answer}
    (ha : (orchestrator Text S sp ex).Answer i c r w w' l) (hj : j ≠ i) :
    seeks.read j (l :: tr) = seeks.read j tr := by
  cases ha <;> rw [Monitor.read, if_neg (Ne.symm hj)]

end

theorem Persists.of_record {w w' : World Text Event} (h : w'.redis.record = w.redis.record) :
    Persists w w' := by
  intro id t ht
  exact ⟨t, by rw [h, ht], .refl t⟩

theorem Persists.stands {w w' : World Text Event} {t : Task} (h : Persists w w')
    (ht : Stands w t) : Stands w' t := by
  obtain ⟨u, hu, hut⟩ := ht
  obtain ⟨v, hv, hvu⟩ := h _ _ hu
  exact ⟨v, hv, hvu.trans hut⟩

theorem Persists.answers {S : Setup Event} {w w' : World Text Event} {h id : String}
    (hp : Persists w w') (ha : Answers S w h id) : Answers S w' h id := by
  obtain ⟨t, ht, hd⟩ := ha
  obtain ⟨u, hu, hut⟩ := hp _ _ ht
  exact ⟨u, hu, hut.digest.trans hd⟩

theorem Stands.answers {S : Setup Event} {w : World Text Event} {t : Task} (h : Stands w t) :
    Answers S w (t.digest S) t.taskId := by
  obtain ⟨u, hu, hut⟩ := h
  exact ⟨u, hu, hut.digest⟩

/-- What a move of a process is to keep, with what the requests look for left out. -/
structure Conforms (S : Setup Event) (w w' : World Text Event) (d : Progress) : Prop where
  persists : Persists w w'
  keyed : ∀ id t, w'.redis.record id = some t →
    w.redis.record id = some t ∨ t.taskId = id ∧ Accepted t.projectName
  queued : ∀ t ∈ w'.redis.queued, t ∈ w.redis.queued ∨ Stands w' t
  inHand : ∀ t, d.task = some t → Stands w' t
  names : ∀ h id, w'.redis.digests h = some id → w.redis.digests h = some id ∨ Answers S w' h id

namespace Consistent
variable {S : Setup Event} {tr : List (SysLabel Text Event)} {w w' : World Text Event}
  {ds : Nat → Progress} {l : SysLabel Text Event} {i : Nat} {d : Progress} {t u : Task}

/-- A step that finds nothing new. -/
theorem advance (h : Consistent S tr w ds) (ha : Conforms S w w' d)
    (hpending : ∀ j k id, seeks.read j (l :: tr) = .named k id → Answers S w k id)
    (hfound : ∀ j k t, seeks.read j (l :: tr) = .found k t →
      t.digest S = k ∧ Accepted t.projectName) :
    Consistent S (l :: tr) w' (Function.update ds i d) where
  keyed id t ht := (ha.keyed id t ht).elim (h.keyed id t) fun hk => hk
  queued t ht := (ha.queued t ht).elim (fun ht => ha.persists.stands (h.queued t ht)) fun ht => ht
  inHand := stands_inHand h.inHand (fun _ => ha.persists.stands) ha.inHand
  names k id hk := (ha.names k id hk).elim (fun hk => ha.persists.answers (h.names k id hk))
    fun hk => hk
  pending j k id hj := ha.persists.answers (hpending j k id hj)
  found := hfound

/-- What the requests have found stays right, whichever process moves. -/
theorem answer {c : Cmd Text Event} {r : c.Answer} (h : Consistent S tr w ds)
    (hl : (orchestrator Text S sp ex).Answer i c r w w' l) (ha : Conforms S w w' d) :
    Consistent S (l :: tr) w' (Function.update ds i d) := by
  apply h.advance ha
  · intro j k id hj
    by_cases hji : j = i
    · subst hji
      exact (seeks_named hl hj).elim (h.pending j k id) (h.names k id)
    · rw [seeks_other hl hji] at hj
      exact h.pending j k id hj
  · intro j k t hj
    by_cases hji : j = i
    · subst hji
      obtain hj | ⟨id, hid, ht⟩ := seeks_found hl hj
      · exact h.found j k t hj
      · obtain ⟨u, hu, hd⟩ := h.pending j k id hid
        obtain rfl := Option.some.inj (ht.symm.trans hu)
        exact ⟨hd, (h.keyed id t ht).2⟩
    · rw [seeks_other hl hji] at hj
      exact h.found j k t hj

theorem conforms_same (h : Consistent S tr w ds) (hw : SameTasks w w')
    (ht : ∀ t, d.task = some t → (ds i).task = some t ∨ Stands w' t)
    (hn : ∀ k id, w'.redis.digests k = some id → w.redis.digests k = some id ∨ Answers S w' k id) :
    Conforms S w w' d where
  persists := .of_record hw.record
  keyed id t hr := .inl (by rwa [hw.record] at hr)
  queued t hq := .inl (by rwa [hw.queued] at hq)
  inHand t hd := (ht t hd).elim (fun hd => Persists.stands (.of_record hw.record)
    (h.inHand i t hd)) fun hd => hd
  names := hn

/-- A record is written by a process that has the task in hand. -/
theorem conforms_set (h : Consistent S tr w ds) (ht : (ds i).task = some t) (hu : u.SameTask t)
    (hd : ∀ v, d.task = some v → v = u) :
    Conforms S w (w.onRedis (·.set u.taskId (modelDumpJson u))) d := by
  obtain ⟨v, hv, hvt⟩ := h.inHand i t ht
  have hrec : (w.redis.set u.taskId (modelDumpJson u)).record =
      Function.update w.redis.record u.taskId (some u) := Redis.record_set_dump ..
  have hstands : Stands (w.onRedis (·.set u.taskId (modelDumpJson u))) u :=
    ⟨u, by rw [World.onRedis, hrec, Function.update_self], .refl u⟩
  constructor
  · intro id x hx
    by_cases hid : id = u.taskId
    · subst hid
      rw [hu.1, hv] at hx
      obtain rfl := Option.some.inj hx
      exact ⟨u, by rw [World.onRedis, hrec, Function.update_self], hu.trans hvt.symm⟩
    · exact ⟨x, by rw [World.onRedis, hrec, Function.update_of_ne hid, hx], .refl x⟩
  · intro id x hx
    rw [World.onRedis, hrec] at hx
    rcases update_eq_iff.1 hx with ⟨rfl, he⟩ | ⟨_, hx⟩
    · obtain rfl := Option.some.inj he
      right
      refine ⟨rfl, ?_⟩
      rw [hu.2.1, ← hvt.2.1]
      exact (h.keyed _ v hv).2
    · exact .inl hx
  · intro x hx
    rw [World.onRedis, Redis.queued_set] at hx
    exact .inl hx
  · intro x hx
    rw [hd x hx]
    exact hstands
  · exact fun _ _ hk => .inl hk

/-- A new task is stored. -/
theorem conforms_create (hid : t.taskId ∉ w.redis.tasks) (hname : Accepted t.projectName)
    (hd : ∀ v, d.task = some v → v = t) :
    Conforms S w (w.onRedis (·.set t.taskId (modelDumpJson t))) d := by
  have hrec : (w.redis.set t.taskId (modelDumpJson t)).record =
      Function.update w.redis.record t.taskId (some t) := Redis.record_set_dump ..
  constructor
  · intro id x hx
    have hne : id ≠ t.taskId := by
      rintro rfl
      exact hid (AList.mem_keys.1 (Redis.mem_keys_of_record hx))
    exact ⟨x, by rw [World.onRedis, hrec, Function.update_of_ne hne, hx], .refl x⟩
  · intro id x hx
    rw [World.onRedis, hrec] at hx
    rcases update_eq_iff.1 hx with ⟨rfl, he⟩ | ⟨_, hx⟩
    · obtain rfl := Option.some.inj he
      exact .inr ⟨rfl, hname⟩
    · exact .inl hx
  · intro x hx
    rw [World.onRedis, Redis.queued_set] at hx
    exact .inl hx
  · intro x hx
    rw [hd x hx]
    exact ⟨t, by rw [World.onRedis, hrec, Function.update_self], .refl t⟩
  · exact fun _ _ hk => .inl hk

theorem conforms {c : Cmd Text Event} {r : c.Answer} (h : Consistent S tr w ds)
    (ha : (orchestrator Text S sp ex).Answer i c r w w' l) (hok : named tr w l w')
    (hm : Move S (ds i) c r d) : Conforms S w w' d := by
  have hsame (hw : Untouched w w')
      (ht : ∀ t, d.task = some t → (ds i).task = some t ∨ Stands w' t) : Conforms S w w' d :=
    h.conforms_same hw.sameTasks ht fun _ _ hk => .inl (by rwa [hw.redis] at hk)
  rcases hm.carries with hc | hc
  · cases hc with
    | aside hq ht =>
      refine h.conforms_same (answer_sameTasks hq ha) (fun t hd => .inl (ht t hd)) fun k id hk => ?_
      cases c with
      | setDigest k' id' =>
        have hnew : Answers S w' k' id' := by
          generalize hdi : ds i = d₀ at hm
          cases hm with
          | background hb => cases hb
          | register hr =>
            rename_i t r
            exact (Persists.of_record (answer_sameTasks hq ha).record).answers
              (h.inHand i t (by rw [hdi]; rfl)).answers
        rcases answer_effect ha with ⟨_, ⟨_, rfl⟩, _⟩ | ⟨_, hw⟩
        · rcases update_eq_iff.1 hk with ⟨rfl, he⟩ | ⟨_, hk⟩
          · obtain rfl := Option.some.inj he
            exact .inr hnew
          · exact .inl hk
        · exact .inl (by rwa [hw.redis] at hk)
      | delDigest k' =>
        rcases answer_effect ha with ⟨_, ⟨_, rfl⟩, _⟩ | ⟨_, hw⟩
        · rcases update_eq_iff.1 hk with ⟨_, he⟩ | ⟨_, hk⟩
          · cases he
          · exact .inl hk
        · exact .inl (by rwa [hw.redis] at hk)
      | sadd _ _ =>
        rcases sadd_effect ha with rfl | ⟨_, hw⟩
        · exact .inl hk
        · exact .inl (by rwa [hw.redis] at hk)
      | _ => exact .inl (by rwa [(answer_sameIndex rfl ha).digests] at hk)
    | write ht hu hd =>
      rename_i t u
      rcases set_effect ha with rfl | ⟨_, hw⟩
      · exact h.conforms_set ht hu hd
      · refine hsame hw fun v hv => .inr ?_
        obtain rfl := hd v hv
        obtain ⟨x, hx, hxt⟩ := h.inHand i t ht
        exact ⟨x, by rw [hw.redis, hu.1, hx], hxt.trans hu.symm⟩
    | push ht hd =>
      rename_i t
      rcases lpush_effect ha with rfl | ⟨_, hw⟩
      · refine ⟨.of_record rfl, fun _ _ hx => .inl hx, fun v hv => ?_, fun v hv => ?_,
          fun _ _ hk => .inl hk⟩
        · rw [World.onRedis, Redis.queued_lpush_dump] at hv
          rcases List.mem_cons.1 hv with rfl | hv
          · exact .inr (h.inHand i v ht)
          · exact .inl hv
        · cases hd.symm.trans hv
      · exact hsame hw fun v hv => by cases hd.symm.trans hv
  · generalize ds i = d₀ at hc
    cases hc with
    | read hx ht =>
      rename_i x t id
      rcases answer_effect ha with ⟨a, ⟨he, hw⟩, hr⟩ | ⟨⟨e, he⟩, _⟩
      · subst hw
        have hrec : w'.redis.record id = some t := by
          cases he
          rw [Redis.record, ← hr _ rfl]
          exact hx
        refine hsame ⟨rfl, rfl⟩ fun v hv => .inr ?_
        obtain rfl := Option.some.inj hv
        exact ⟨t, by rw [(h.keyed id t hrec).1, hrec], .refl t⟩
      · cases he
    | store hst hn =>
      rename_i t r
      rcases setNx_effect ha with ⟨hid, rfl, _⟩ | ⟨hr, hw⟩
      · refine conforms_create hid ?_ fun v hv => ?_
        · cases ha <;> exact hok _ rfl t (parse_dump t)
        · rcases granted_some rfl hv with hv | hv
          · exact (Option.some.inj hv).symm
          · cases hv
      · refine hsame hw fun v hv => ?_
        rcases r with e | _ | _
        · cases hv
        · cases hv
        · exact absurd rfl hr
    | pop hx =>
      rename_i x t
      rcases brpop_effect ha with ⟨y, hy, rfl, hr⟩ | ⟨hr, _⟩
      · refine ⟨.of_record rfl, fun _ _ hx => .inl hx, fun v hv => .inl ?_, fun v hv => ?_,
          fun _ _ hk => .inl hk⟩
        · rw [Redis.queued_getLast hy]
          exact List.mem_append_left _ hv
        · obtain rfl := Option.some.inj hv
          cases hr _ rfl
          apply h.queued
          rw [Redis.queued_getLast hy, hx]
          exact List.mem_append_right _ (List.mem_singleton_self t)
      · exact absurd rfl (hr x)
    | popNothing _ =>
      rcases brpop_effect ha with ⟨y, hy, rfl, _⟩ | ⟨_, hw⟩
      · refine ⟨.of_record rfl, fun _ _ hx => .inl hx, fun v hv => .inl ?_, fun v hv => ?_,
          fun _ _ hk => .inl hk⟩
        · rw [Redis.queued_getLast hy]
          exact List.mem_append_left _ hv
        · cases hv
      · exact hsame hw fun v hv => by cases hv

end Consistent

def consistency (Text : Type) [TaskJson Text] (S : Setup Event) :
    Assertion (orchestrator Text S spawn exit) Progress where
  ok := named
  inv := Consistent S
  guar _ _ _ := True

theorem consistency_tracked {S : Setup Event} : Tracked (consistency Text S) World.init := by
  have hkeep {tr : List (SysLabel Text Event)} {w w' : World Text Event} {ds : Nat → Progress}
      {l : SysLabel Text Event} {i : Nat} {d : Progress} (h : Consistent S tr w ds)
      (hw : w'.redis = w.redis) (hd : d.task = none)
      (hl : ∀ j, seeks.read j (l :: tr) = .nothing ∨ seeks.read j (l :: tr) = seeks.read j tr) :
      Consistent S (l :: tr) w' (Function.update ds i d) := by
    refine h.advance ⟨.of_record (by rw [hw]), fun _ _ hx => .inl (hw ▸ hx),
      fun _ hv => .inl (hw ▸ hv), fun _ hv => ?_, fun _ _ hk => .inl (hw ▸ hk)⟩
      (fun j k id hj => ?_) fun j k t hj => ?_
    · cases hd.symm.trans hv
    · rcases hl j with hn | hs
      · cases hn.symm.trans hj
      · exact h.pending j k id (hs.symm.trans hj)
    · rcases hl j with hn | hs
      · cases hn.symm.trans hj
      · exact h.found j k t (hs.symm.trans hj)
  constructor
  · constructor
    · intro _ _ h
      cases h
    · intro _ h
      cases h
    · intro _ _ h
      cases h
    · intro _ _ h
      cases h
    · intro _ _ _ h
      cases h
    · intro _ _ _ h
      cases h
  · exact fun tr w ds i c r w' l d hi ha hok hm => ⟨trivial, hi.answer ha (hi.conforms ha hok hm)⟩
  · intro tr w ds i q w' hi hd hs _
    refine ⟨trivial, hkeep hi (redis_spawn hs) (task_entry q) fun j => ?_⟩
    rw [Monitor.read]
    split
    · exact .inl rfl
    · exact .inr rfl
  · intro tr w ds i q b w' o hi hd he _
    refine ⟨trivial, hkeep hi (redis_exit he) ?_ fun j => ?_⟩
    · cases o with
      | none => rfl
      | some q' => exact task_entry q'
    · rw [Monitor.read]
      split
      · exact .inl rfl
      · exact .inr rfl
  · intro tr w ds e w' hi ht _
    have hw := tick_quiet ht
    have hself : Function.update ds 0 (ds 0) = ds := Function.update_eq_self ..
    have hmove := hi.advance (l := .env e) (i := 0)
      (hi.conforms_same (i := 0) hw (fun t hd => .inl hd) fun k id hk =>
        .inl (by rwa [(tick_sameIndex ht).digests] at hk)) hi.pending hi.found
    rw [hself] at hmove
    exact ⟨trivial, hmove⟩
  · intro tr w ds w' hi hh _
    cases hh
    refine ⟨trivial, hi.keyed, hi.queued, ?_, hi.names, ?_, ?_⟩
    · intro _ _ h
      cases h
    · intro _ _ _ h
      cases h
    · intro _ _ _ h
      cases h

/-- What is stored anew has the name of a request. -/
def Cmd.Named : Cmd Text Event → Prop
  | .setNx _ x => ∀ t : Task, parse x = some t → Accepted t.projectName
  | _ => True

theorem named_of_work {c : Cmd Text Event} (h : c.work) : c.Named := by
  cases c with
  | setNx _ _ => exact absurd h.2 not_false
  | _ => trivial

theorem named_of_recovery {c : Cmd Text Event} (h : c.recovery) : c.Named := by
  cases c with
  | setNx _ _ => exact absurd h.2 not_false
  | _ => trivial

theorem named_of_lookup {c : Cmd Text Event} (h : c.lookup) : c.Named := by
  cases c with
  | setNx _ _ => exact absurd h not_false
  | _ => trivial

theorem named_dump {t : Task} (ht : Accepted t.projectName) :
    (Cmd.setNx t.taskId (modelDumpJson t) : Cmd Text Event).Named := by
  intro u hu
  rw [parse_dump] at hu
  obtain rfl := Option.some.inj hu
  exact ht

theorem asks_createTask_named {S : Setup Event} (body : TaskCreateRequest) :
    Asks Cmd.Named (createTask S body : Py Text Event σ _) := by
  apply within_bind ((asks_findExisting body).mono fun _ => named_of_lookup)
  intro o
  cases o with
  | some t => exact within_pure _
  | none =>
    have hrest (t : Task) (ht : Accepted t.projectName) : Asks Cmd.Named (do
        TaskStore.save S t
        TaskQueue.enqueue t
        return TaskResponse.fromTask t : Py Text Event σ _) :=
      within_bind (asks_save (named_dump ht) trivial fun _ => trivial)
        fun _ => within_bind (asks trivial) fun _ => within_pure _
    intro s
    refine ⟨trivial, fun r => ?_⟩
    cases r with
    | error e => trivial
    | ok id =>
      refine ⟨trivial, fun r => ?_⟩
      cases r with
      | error e => trivial
      | ok createdAt =>
        refine ⟨trivial, fun r => ?_⟩
        cases r with
        | error e => trivial
        | ok updatedAt => exact hrest _ ⟨body.minLength, body.maxLength⟩ s

theorem named_body {S : Setup Event} (q : Kind) : ((system Text S).body q).Within Cmd.Named := by
  apply Within.start
  cases q with
  | recover =>
    exact within_bind (asks_recoverStrandedTasks.mono fun _ => named_of_recovery)
      fun _ => within_pure _
  | worker => exact within_bind (asks_turn.mono fun _ => named_of_work) fun _ => within_pure _
  | request body => exact within_bind (asks_createTask_named body) fun _ => within_pure _

/-- Nothing is required of a step. What is stored anew has the name of a request. -/
def naming (Text : Type) [TaskJson Text] (S : Setup Event) : Assertion (system Text S) Unit where
  ok _ _ _ _ := True
  inv _ _ _ := True
  guar w l w' := named [] w l w'

theorem naming_sound {S : Setup Event} :
    (naming Text S).Sound () (fun _ _ _ => True) World.init := by
  have hsafe (i : Nat) (q : Kind) :
      Safe (naming Text S) i (fun _ _ => True) ((system Text S).body q) () := by
    refine (Safe.of_within (named_body q) ?_).mono fun _ _ _ => trivial
    intro c hc tr w ds l r w' _ _ ha _
    refine ⟨?_, trivial⟩
    intro x hx t ht
    cases c with
    | setNx id y =>
      cases ha <;> obtain rfl := Option.some.inj hx <;> exact hc t ht
    | _ => cases ha <;> cases hx
  have hnone (w w' : World Text Event) {l : SysLabel Text Event} (hl : offers l = none) :
      named [] w l w' := by
    intro x hx
    cases hl.symm.trans hx
  constructor
  · trivial
  · exact fun _ w _ i q w' _ _ _ _ => ⟨hnone w w' rfl, (), trivial, hsafe i q⟩
  · intro _ w _ i _ _ w' o _ _ _ _
    refine ⟨hnone w w' rfl, ?_⟩
    cases o with
    | none => trivial
    | some q => exact ⟨(), trivial, hsafe i q⟩
  · exact fun _ w _ _ w' _ _ _ => ⟨hnone w w' rfl, trivial⟩
  · exact fun _ w _ w' _ _ _ => ⟨hnone w w' rfl, trivial⟩

/-- What a request that has found a record by its digest answers. -/
def Kind.Reports (S : Setup Event) : Kind → Except Exc Returned → Search → Prop
  | .request body, b, .found h t => h = digestKey S body.projectName body.requirement ∧
    ∀ resp, b = .ok (.response resp) → resp = .fromTask t
  | _, _, _ => True

/-- The commands of a request besides the two that look a digest up. -/
def Cmd.blind : Cmd Text Event → Prop
  | .getDigest _ | .get _ => False
  | _ => True

theorem frames_blind {S : Setup Event} {i : Nat} (d : Search) :
    (seeks.assertion (system Text S)).Frames i Cmd.blind d := by
  apply Monitor.frames
  · intro c r hc
    cases c with
    | getDigest _ | get _ => exact absurd hc not_false
    | _ => rfl
  · exact fun _ _ _ => rfl

section
variable {S : Setup Event} {i : Nat} {body : TaskCreateRequest} {s : σ} {d : Search}

/-- A task that is made anew is not one that was found. -/
theorem wp_create_seeks (hd : ∀ h t, d ≠ .found h t) : Wp (seeks.assertion (system Text S)) i (do
      let task ← newTask body
      TaskStore.save S task
      TaskQueue.enqueue task
      return TaskResponse.fromTask task)
    (fun resp _ d => (Kind.request body).Reports S (.ok (.response resp)) d)
    (fun e _ d => (Kind.request body).Reports S (.error e) d) s d := by
  have hasks : Asks Cmd.blind (do
      let task ← newTask body
      TaskStore.save S task
      TaskQueue.enqueue task
      return TaskResponse.fromTask task : Py Text Event σ _) := by
    apply within_bind (asks_newTask trivial trivial body)
    intro t
    apply within_bind (asks_save trivial trivial fun _ => trivial)
    exact fun _ => within_bind (asks trivial) fun _ => within_pure _
  have hnone (b : Except Exc Returned) : (Kind.request body).Reports S b d := by
    cases d with
    | found h t => exact absurd rfl (hd h t)
    | _ => trivial
  apply Wp.mono (Wp.of_within hasks (frames_blind d))
  · rintro resp s d' rfl
    exact hnone _
  · rintro e s d' rfl
    exact hnone _

theorem wp_findByDigest_seeks : Wp (seeks.assertion (system Text S)) i
    (TaskStore.findByDigest S body.projectName body.requirement)
    (fun o _ d => match o with
      | some t => d = .found (digestKey S body.projectName body.requirement) t
      | none => ∀ h t, d ≠ .found h t)
    (fun _ _ d => ∀ h t, d ≠ .found h t) s .nothing := by
  have hnothing (h : String) (t : Task) : Search.nothing ≠ .found h t := nofun
  have hnamed (k id h : String) (t : Task) : Search.named k id ≠ .found h t := nofun
  apply Wp.bind
  apply Monitor.wp_call
  · intro r w w' hr
    rcases r with e | _ | id
    · exact hnothing
    · exact Wp.pure _ hnothing
    · apply Wp.bind
      apply Monitor.wp_call
      · intro r w w' hr
        rcases r with e | _ | x
        · exact hnamed _ id
        · exact Wp.pure _ (hnamed _ id)
        · cases hx : (modelValidateJson x : Except String Task) with
          | ok t =>
            have hfound : (seeks : Monitor (Cmd Text Event) Cmd.Answer Search).cmd
                (.named (digestKey S body.projectName body.requirement) id) (.get id)
                (.ok (some x)) = .found (digestKey S body.projectName body.requirement) t := by
              simp only [seeks, parse_eq_some.2 hx, ↓reduceIte]
            simp only [Outcome, hx]
            exact Wp.pure _ hfound
          | error msg =>
            have hskip : (seeks : Monitor (Cmd Text Event) Cmd.Answer Search).cmd
                (.named (digestKey S body.projectName body.requirement) id) (.get id)
                (.ok (some x)) = .nothing := by
              simp only [seeks, parse, hx, Except.toOption]
            simp only [Outcome, hx]
            apply Wp.raise
            intro h t ht
            cases hskip.symm.trans ht
      · rintro r w w' ⟨e, rfl, -⟩
        exact hnamed _ id
  · rintro r w w' ⟨e, rfl, -⟩
    exact hnothing

end

theorem reports_body {S : Setup Event} (i : Nat) (q : Kind) :
    Safe (seeks.assertion (system Text S)) i (q.Reports S) ((system Text S).body q) .nothing := by
  cases q with
  | recover => exact Monitor.safe_true _
  | worker => exact Monitor.safe_true _
  | request body =>
    have hlookup : Asks Cmd.blind (TaskStore.findIncomplete body.projectName :
        Py Text Event Unit _) := asks_findIncomplete (fun _ => trivial) (fun _ => trivial) _
    apply Wp.start
    apply Wp.bind
    apply Wp.bind
    apply Wp.bind
    apply Wp.mono (Wp.of_within hlookup (frames_blind .nothing))
    · rintro o s d rfl
      cases o with
      | some t => exact Wp.pure _ (Wp.pure _ (Wp.pure _ trivial))
      | none =>
        apply Wp.mono wp_findByDigest_seeks
        · intro o s d hd
          cases o with
          | some t =>
            obtain rfl := hd
            refine Wp.pure _ (Wp.pure _ ⟨rfl, ?_⟩)
            intro resp hresp
            cases hresp
            rfl
          | none => exact Wp.mono (wp_create_seeks hd) (fun _ _ _ h => Wp.pure _ h) fun _ _ _ h => h
        · intro e s d hd
          cases d with
          | found h t => exact absurd rfl (hd h t)
          | _ => trivial
    · rintro e s d rfl
      trivial

/-- Two accepted pairs with the same digest are the same pair exactly if one of them has no NUL
that could be taken for the separator. A request with such a pair that is answered with the task
of its digest is answered with a task of its own name and requirement. -/
theorem key_law {S : Setup Event} (hS : Function.Injective S.sha256) :
    (∀ p r, Accepted p → ((∀ p' r', Accepted p' → digestKey S p r = digestKey S p' r' →
      p' = p ∧ r' = r) ↔ Unambiguous p r)) ∧
    ∀ tr s i body resp h t, Run (system Text S) anyway (.idle .init) tr s →
      s.pool i = some (.request body, .ret (.ok (.response resp))) →
      seeks.read i tr = .found h t → Unambiguous body.projectName body.requirement →
      resp.projectName = body.projectName ∧ resp.requirement = body.requirement := by
  refine ⟨fun p r hp => ⟨fun h => ?_, fun h p' r' hp' he => h.pair hS hp' he⟩, ?_⟩
  · by_contra hu
    obtain ⟨p', r', hp', he, hne⟩ := exists_collision hS hp hu
    exact hne (h p' r' hp' he)
  · intro tr s i body resp h t hr hp hf hu
    have hnamed : Run (system Text S) named (.idle .init) tr s :=
      hr.refine fun _ _ _ _ hr hs _ => naming_sound.guar hr hs trivial
    obtain ⟨ds, hi⟩ := consistency_tracked.sound.holds hnamed
    obtain ⟨hd, hname⟩ := hi.inv.found i h t hf
    have hreports := Monitor.post_of_run (Kind.Reports S) reports_body hr hp
    rw [hf] at hreports
    obtain ⟨rfl, hresp⟩ := hreports
    obtain ⟨hproject, hrequirement⟩ := hu.pair hS hname hd.symm
    rw [hresp resp rfl]
    exact ⟨hproject, hrequirement⟩

end

/-- The name and the requirement that process `i` has asked for, and those of the task that it has
found by the digest and answered. -/
def answered (i : Nat) (o : List (SysLabel Task String) × SysConfig Task String) :
    Option ((String × String) × (String × String)) :=
  match o.2.pool i, seeks.read i o.1 with
  | some (.request body, .ret (.ok (.response resp))), .found _ _ =>
    some ((body.projectName, body.requirement), (resp.projectName, resp.requirement))
  | _, _ => none

theorem answered_eq {i : Nat} {tr : List (SysLabel Task String)} {s : SysConfig Task String}
    {asked told : String × String} (h : answered i (tr, s) = some (asked, told)) :
    ∃ body resp k t, s.pool i = some (.request body, .ret (.ok (.response resp))) ∧
      seeks.read i tr = .found k t ∧ (body.projectName, body.requirement) = asked ∧
      (resp.projectName, resp.requirement) = told := by
  unfold answered at h
  split at h
  · rename_i body resp k t hp hf
    obtain ⟨ha, hb⟩ := Prod.mk.inj (Option.some.inj h)
    exact ⟨body, resp, k, t, hp, hf, ha, hb⟩
  · cases h

/-- A request that looks for unfinished tasks before another one saves its own, and for the digest
after that. -/
def overtakenRequest : Schedule :=
  start ++ [.spawn 1 (.request demoRequest), .spawn 2 (.request demoRequest)] ++ go 2 1 ++
    go 1 9 ++ go 2 2

theorem key_law_overtaken : ∃ tr s body resp h t, DemoRun anyway tr s ∧
    s.pool 2 = some (.request body, .ret (.ok (.response resp))) ∧
    seeks.read 2 tr = .found h t ∧ resp.projectName = body.projectName ∧
    resp.requirement = body.requirement := by
  obtain ⟨tr, s, hr, hs⟩ := demoDriver.drive_observe anyway (.idle .init) overtakenRequest
    (answered 2) (show _ = some (("p", "r"), ("p", "r")) by decide)
  obtain ⟨body, resp, h, t, hp, hf, hasked, -⟩ := answered_eq hs
  obtain ⟨hname, hrequirement⟩ := Prod.mk.inj hasked
  have hu : Unambiguous body.projectName body.requirement := by
    rw [hname, hrequirement]
    exact ⟨by decide, by decide⟩
  have hlaw := (key_law (S := demo) Function.injective_id).2 tr s 2 body resp h t hr hp hf hu
  exact ⟨tr, s, body, resp, h, t, hr, hp, hf, hlaw⟩

/-- The name ends with the separator. -/
def endsInSeparator : TaskCreateRequest where
  projectName := "a\x00"
  requirement := "b"
  minLength := by decide
  maxLength := by decide

/-- The requirement starts with the separator. -/
def startsWithSeparator : TaskCreateRequest where
  projectName := "a"
  requirement := "\x00b"
  minLength := by decide
  maxLength := by decide

/-- The first request makes a task, and the second one looks for its own. -/
def separators : Schedule :=
  start ++ [.spawn 1 (.request endsInSeparator)] ++ go 1 9 ++
    [.exit 1, .spawn 2 (.request startsWithSeparator)] ++ go 2 3

theorem not_key_law : ¬∀ tr s i body resp h t, DemoRun anyway tr s →
    s.pool i = some (.request body, .ret (.ok (.response resp))) →
    seeks.read i tr = .found h t →
    resp.projectName = body.projectName ∧ resp.requirement = body.requirement := by
  intro h
  obtain ⟨tr, s, hr, hs⟩ := demoDriver.drive_observe anyway (.idle .init) separators
    (answered 2) (show _ = some (("a", "\x00b"), ("a\x00", "b")) by decide)
  obtain ⟨body, resp, k, t, hp, hf, hasked, htold⟩ := answered_eq hs
  obtain ⟨hname, -⟩ := h tr s 2 body resp k t hr hp hf
  rw [(Prod.mk.inj hasked).1, (Prod.mk.inj htold).1] at hname
  exact absurd hname (by decide)

end Orchestrator
