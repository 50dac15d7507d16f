import SqlScan.Proofs.Recovery

/-!
# What the steps of a session answer

Whatever a step answers it has read from where the session stood, item after item, or it is the end
that closes a stream where a limit stopped it. So a token that was ever answered for a source was read
somewhere in that source (`Token.ReadIn`), whatever steps led there.
-/

namespace SqlScan

open Cursor (Reads)

/-- All tokens and faults of a reply. -/
def Reply.items : Reply → List Item
  | .item x => [x]
  | .moved _ => []
  | .position => []
  | .settings _ => []
  | .tokens (.ok ts) => ts.map .token
  | .tokens (.error fault) => [.fault fault]
  | .stream (.ok ⟨ts, fs⟩) => ts.map .token ++ fs.map .fault
  | .stream (.error fault) => [.fault fault]

/-! ### Blocks and replies -/

theorem Block.mem_of_mem_strictAnswer {b : Block} {item : Item}
    (h : item ∈ (Reply.tokens b.strictAnswer).items) : item ∈ b.items := by
  unfold strictAnswer at h
  split at h
  · rename_i fault hfault
    obtain rfl := List.mem_singleton.1 h
    exact Item.mem_filterMap_fault?.1 (List.mem_of_head? hfault)
  · obtain ⟨t, ht, rfl⟩ := List.mem_map.1 h
    exact Item.mem_filterMap_token?.1 ht

theorem Block.mem_of_mem_stream {b : Block} {item : Item}
    (h : item ∈ (Reply.stream (.ok b.stream)).items) : item ∈ b.items ∨
      item = .token (.endOfFile (b.cursor.mark.spanTo b.cursor.mark) b.cursor.mark.location) := by
  rcases List.mem_append.1 h with h | h
  · obtain ⟨t, ht, rfl⟩ := List.mem_map.1 h
    rcases List.mem_append.1 ht with ht | ht
    · exact .inl (Item.mem_filterMap_token?.1 ht)
    · split at ht
      · exact .inr (congrArg Item.token (List.mem_singleton.1 ht))
      · cases ht
  · obtain ⟨f, hf, rfl⟩ := List.mem_map.1 h
    exact .inl (Item.mem_filterMap_fault?.1 hf)

theorem Reply.items_stream_map (answer : Except Fault (List Token)) :
    (Reply.stream (answer.map fun tokens => ⟨tokens, []⟩)).items = (Reply.tokens answer).items := by
  cases answer with
  | error fault => rfl
  | ok tokens => exact List.append_nil _

/-! ### Steps -/

namespace Session

variable {x : Session} {step : Step} {item : Item}

theorem perform_next {s : Session} {item : Item} (h : s.cursor.next.1 = item) :
    s.perform .next = (.item item, [], s.moveTo s.cursor.next.2) := by
  rw [← h]
  rfl

theorem next_of_perform {s after : Session} {item : Item} {log : List Event}
    (h : s.perform .next = (.item item, log, after)) : s.cursor.next.1 = item :=
  Reply.item.inj (congrArg Prod.fst h)

/-- What a step answers it has read, or it closes a stream with it where reading stopped. -/
theorem mem_items_perform (h : item ∈ (x.perform step).1.items) :
    ∃ items d, Reads x.cursor items d ∧ (item ∈ items ∨
      item = .token (.endOfFile (d.mark.spanTo d.mark) d.mark.location)) := by
  cases step with
  | next =>
    obtain rfl := List.mem_singleton.1 h
    exact ⟨[x.cursor.next.1], x.cursor.next.2, .step (.stop _), .inl List.mem_cons_self⟩
  | seek offset =>
    unfold perform at h
    dsimp only at h
    split at h <;> cases h
  | position => cases h
  | settings => cases h
  | strict =>
    exact ⟨_, _, Cursor.reads_block (some 0) x.cursor, .inl (Block.mem_of_mem_strictAnswer h)⟩
  | batch => exact ⟨_, _, Cursor.reads_block _ x.cursor, Block.mem_of_mem_stream h⟩
  | run =>
    unfold perform Cursor.run at h
    dsimp only at h
    split at h
    · rw [Reply.items_stream_map] at h
      exact ⟨_, _, Cursor.reads_block (some 0) x.cursor, .inl (Block.mem_of_mem_strictAnswer h)⟩
    · exact ⟨_, _, Cursor.reads_block _ x.cursor, Block.mem_of_mem_stream h⟩

end Session

/-- The token or fault was read somewhere in the source, or it is the end that closes what was read
there. -/
def Item.ReadIn (source : List Char) (item : Item) : Prop :=
  ∃ c : Cursor, c.Consistent ∧ c.source = source ∧
    (c.next.1 = item ∨ item = .token (.endOfFile (c.mark.spanTo c.mark) c.mark.location))

namespace Session

variable {x : Session} {step : Step} {item : Item}

theorem readIn_perform (hx : x.cursor.Consistent) (h : item ∈ (x.perform step).1.items) :
    item.ReadIn x.cursor.source := by
  obtain ⟨items, d, hreads, hitem | hclosing⟩ := mem_items_perform h
  · obtain ⟨m, hm, hsource, hnext⟩ := hreads.exists_next hx hitem
    exact ⟨m, hm, hsource, .inl hnext⟩
  · exact ⟨d, hreads.consistent hx, hreads.source_eq, .inr hclosing⟩

theorem readIn_trace (hx : x.cursor.Consistent) (steps : List Step) :
    ∀ outcome ∈ (x.trace steps).1, ∀ item ∈ outcome.reply.items, item.ReadIn x.cursor.source := by
  induction steps generalizing x with
  | nil => simp [trace]
  | cons step steps ih =>
    obtain ⟨hconsistent, hsame⟩ := consistent_perform hx step
    intro outcome houtcome item hitem
    rcases List.mem_cons.1 houtcome with rfl | houtcome
    · exact readIn_perform hx hitem
    · rw [← hsame]
      exact ih hconsistent outcome houtcome item hitem

end Session

/-- The token was read somewhere in the source, or it is the end that closes what was read there. -/
def Token.ReadIn (source : List Char) (t : Token) : Prop :=
  ∃ c : Cursor, c.Consistent ∧ c.source = source ∧
    (c.next.1 = .token t ∨ t = .endOfFile (c.mark.spanTo c.mark) c.mark.location)

namespace Session.Reachable

variable {settings : Settings} {source : List Char} {session : Session} {t : Token}

theorem readIn (hsession : Session.Reachable settings source session) {step : Step}
    (ht : .token t ∈ (session.perform step).1.items) : t.ReadIn source := by
  obtain ⟨hconsistent, rfl⟩ := hsession.consistent
  obtain ⟨c, hc, hsource, hnext⟩ := readIn_perform hconsistent ht
  exact ⟨c, hc, hsource, hnext.imp_right Item.token.inj⟩

theorem readIn_of_stream (hsession : Session.Reachable settings source session) {step : Step}
    {stream : TokenStream} (hreply : (session.perform step).1 = .stream (.ok stream))
    (ht : t ∈ stream.tokens) : t.ReadIn source := by
  have hitem : .token t ∈ (session.perform step).1.items := by
    rw [hreply]
    exact List.mem_append_left _ (List.mem_map_of_mem ht)
  exact hsession.readIn hitem

end Session.Reachable

/-- A pass over a source is a step of the session that begins there. -/
theorem Token.readIn_of_answer {settings : Settings} {source : List Char} {stream : TokenStream}
    (h : (tokenize settings source).answer = .ok stream) {t : Token} (ht : t ∈ stream.tokens) :
    t.ReadIn source := by
  have hreply : ((Session.ofSource settings source).perform .run).1 = .stream (.ok stream) :=
    congrArg Reply.stream h
  exact Session.Reachable.start.readIn_of_stream hreply ht

end SqlScan
