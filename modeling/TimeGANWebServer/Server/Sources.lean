import TimeGANWebServer.Http.Located
import TimeGANWebServer.Server.EventLoop

/-!
# Where the bytes of a write come from

The vectors of a response point to what is left of it, as long as the header is not taken for sent
before it has been.  Then a byte sent through `m_iv[0]` is of the header, and one sent through
`m_iv[1]` is of the generated CSV file or of the mapping, if that is long enough.
-/

namespace TimeGANWebServer.Server

open TimeGANWebServer.Http TimeGANWebServer.Support

/-- Bytes from one connection, if there are any. -/
def Source.From (source : Source) (conn : ConnId) : Prop :=
  source = .nothing ∨ source = .one conn

instance decidableFrom (source : Source) (conn : ConnId) : Decidable (source.From conn) :=
  inferInstanceAs (Decidable (_ ∨ _))

theorem Source.From.join {left right : Source} {conn : ConnId} (first : left.From conn)
    (second : right.From conn) : (left.join right).From conn := by
  rcases first with rfl | rfl
  · exact second
  · rcases second with rfl | rfl
    · exact .inr rfl
    · exact .inr (if_pos rfl)

/-- Bytes that are all from one connection. -/
theorem Source.From.foldr {sources : List Source} {conn : ConnId}
    (all : ∀ source ∈ sources, source.From conn) :
    (sources.foldr Source.join .nothing).From conn := by
  induction sources with
  | nil => exact .inl rfl
  | cons source sources ih =>
      exact (all source List.mem_cons_self).join
        (ih fun later member => all later (List.mem_cons_of_mem source member))

namespace State

/-- What one `writev` sends is of the response and, behind the header, of the mapping. -/
theorem offeredSources_from {origins : Origins} {owner : ConnId} {response : ResponseState}
    {size count : Nat} (located : response.Located size) (built : origins.response.From owner)
    (mapped : response.ivCount = 2 → response.iv0.len < count →
      (∃ first, response.iv1.base = .file response.fileAddress first) →
        size ≤ response.fileAddress.length ∧ origins.mapping.From owner) :
    ∀ source ∈ (offeredSources origins response).take count, source.From owner := by
  have header : ∀ source ∈ (List.range response.iv0.len).map
      (byteSource origins response response.iv0.base), source.From owner := by
    intro source member
    obtain ⟨index, inside, rfl⟩ := List.mem_map.mp member
    obtain ⟨first, base, there⟩ := located.header_byte (List.mem_range.mp inside)
    rw [byteSource, if_neg there, base]
    exact built
  intro source member
  have few := located.count
  obtain none | one | two : response.ivCount = 0 ∨ response.ivCount = 1 ∨ response.ivCount = 2 := by
    omega
  · simp only [offeredSources, none, List.take_zero, List.flatMap_nil, List.take_nil,
      List.not_mem_nil] at member
  · simp only [offeredSources, one, List.take_succ_cons, List.take_zero, List.flatMap_cons,
      List.flatMap_nil, List.append_nil] at member
    exact header source (List.mem_of_mem_take member)
  · simp only [offeredSources, two, List.take_succ_cons, List.take_zero, List.flatMap_cons,
      List.flatMap_nil, List.append_nil, List.take_append, List.length_map, List.length_range,
      List.mem_append] at member
    rcases member with front | behind
    · exact header source (List.mem_of_mem_take front)
    · have beyond : response.iv0.len < count := by
        by_contra within
        rw [Nat.sub_eq_zero_of_le (Nat.le_of_not_lt within), List.take_zero] at behind
        exact List.not_mem_nil behind
      obtain ⟨index, inside, rfl⟩ := List.mem_map.mp (List.mem_of_mem_take behind)
      rcases located.body_byte two (List.mem_range.mp inside) with
        ⟨base, there⟩ | ⟨first, base, there⟩
      · rw [byteSource, if_neg there, base]
        exact built
      · obtain ⟨long, own⟩ := mapped two beyond ⟨first, base⟩
        rw [byteSource, if_neg (there long), base]
        exact own

/-- What a call of `write` sends comes from a connection, if the response does and the mapping,
where it is reached. -/
theorem sentSources_from {origins : Origins} {owner : ConnId} {response : ResponseState}
    {results : List WritevResult} {loop : SendLoop} (course : response.Sends results loop)
    {csv : Bool} (located : response.Located (response.bodySize csv))
    (built : origins.response.From owner)
    (whole : response.ivCount = 2 →
      WholeHeader response.writeIdx response.iv0.len response.bytesHaveSend.toNat results)
    (mapped : response.sendsMapped results = true →
      response.bodySize csv ≤ response.fileAddress.length ∧ origins.mapping.From owner) :
    ∀ source ∈ sentSources origins response results, source.From owner := by
  have reached : ∀ {response : ResponseState} {count : Nat} {results : List WritevResult},
      response.ivCount = 2 → response.iv0.len < count →
      (∃ first, response.iv1.base = .file response.fileAddress first) →
        response.sendsMapped (.accepted count :: results) = true := by
    rintro response count results two beyond ⟨first, base⟩
    simp only [ResponseState.sendsMapped, two, beyond, base, decide_true, beq_self_eq_true,
      Bool.and_self, Bool.true_or]
  induction course with
  | again => exact fun _ member => absurd member List.not_mem_nil
  | failed => exact fun _ member => absurd member List.not_mem_nil
  | last =>
      simp only [sentSources, List.append_nil]
      exact offeredSources_from located built fun two beyond file =>
        mapped (reached two beyond file)
  | @next response count results rest accepts unfinished later ih =>
      obtain ⟨advanced, left⟩ := located.advance (by omega) fun two => (whole two).1
      have nonneg := located.haveSend
      have sent : (response.advance count).bytesHaveSend.toNat =
          response.bytesHaveSend.toNat + count := by
        rw [ResponseState.bytesHaveSend_advance]
        omega
      intro source member
      simp only [sentSources, List.mem_append] at member
      rcases member with now | further
      · exact offeredSources_from located built
          (fun two beyond file => mapped (reached two beyond file)) source now
      · refine ih ?_ ?_ ?_ source further
        · rw [ResponseState.bodySize_advance]
          exact advanced
        · rw [ResponseState.ivCount_advance, ResponseState.writeIdx_advance, left, sent]
          exact fun two => (whole two).2
        · rw [ResponseState.bodySize_advance, ResponseState.fileAddress_advance]
          intro later
          refine mapped ?_
          simp only [ResponseState.sendsMapped, later, Bool.or_true]

end State

end TimeGANWebServer.Server
