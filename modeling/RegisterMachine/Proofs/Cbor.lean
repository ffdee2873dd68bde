import RegisterMachine.Cbor.Value
import RegisterMachine.Proofs.Codec

namespace RegisterMachine

namespace Octets

@[simp]
theorem length_bigEndian (count value : Nat) : (bigEndian count value).length = count := by
  simp [bigEndian]

theorem fromBigEndian_bigEndian {count value : Nat} (h : value < 256 ^ count) :
    fromBigEndian (bigEndian count value) = value := by
  rw [fromBigEndian, bigEndian, List.reverse_reverse, fromLittleEndian_littleEndian,
    Nat.mod_eq_of_lt h]

end Octets

namespace Cbor

variable {α β : Type}

-- The reader takes exactly these bytes off the front, whatever follows them, and finds anything
-- less cut short.
structure Takes (read : Reader α) (bytes : Octets) (a : α) : Prop where
  whole (rest : Octets) : read (bytes ++ rest) = .ok (a, rest)
  part {piece : Octets} (h : piece <+: bytes) (hne : piece ≠ bytes) : read piece = .error .cutShort

-- Two readers one after the other. A part that goes beyond the bytes of the first is a part of
-- those of the second.
theorem Takes.bind {first : Reader α} {bytes bytes' : Octets} {a : α} {b : β}
    (h : Takes first bytes a) (second : α → Reader β) (h' : Takes (second a) bytes' b) :
    Takes (fun input => first input >>= fun (a, rest) => second a rest) (bytes ++ bytes') b where
  whole rest := by
    rw [List.append_assoc, h.whole]
    exact h'.whole rest
  part := by
    intro piece hpiece hne
    by_cases hshort : piece <+: bytes ∧ piece ≠ bytes
    · simp only [h.part hshort.1 hshort.2]
      rfl
    · have hlong : bytes <+: piece := by
        have hbytes := List.prefix_append bytes bytes'
        rcases List.prefix_or_prefix_of_prefix hpiece hbytes with hle | hle
        · have heq : piece = bytes := by
            by_contra hdiff
            exact hshort ⟨hle, hdiff⟩
          rw [heq]
        · exact hle
      obtain ⟨more, rfl⟩ := hlong
      have hmore : more <+: bytes' := (List.prefix_append_right_inj bytes).mp hpiece
      have hproper : more ≠ bytes' := fun heq => hne (by rw [heq])
      simp only [h.whole]
      exact h'.part hmore hproper

theorem Takes.pure (a : α) : Takes (fun input => Except.ok (a, input)) [] a where
  whole _ := rfl
  part h hne := absurd (List.prefix_nil.mp h) hne

theorem Takes.map {read : Reader α} {bytes : Octets} {a : α} (h : Takes read bytes a) (f : α → β) :
    Takes (fun input => read input >>= fun (a, rest) => .ok (f a, rest)) bytes (f a) := by
  have hbind := h.bind (fun a rest => .ok (f a, rest)) (.pure (f a))
  rwa [List.append_nil] at hbind

theorem readOctets_takes (bytes : Octets) : Takes (readOctets bytes.length) bytes bytes where
  whole rest := by simp [readOctets]
  part := by
    intro piece hpiece hne
    have hlt : piece.length < bytes.length := by
      have hle := hpiece.length_le
      have hlength : piece.length ≠ bytes.length := fun heq => hne (hpiece.eq_of_length heq)
      omega
    simp [readOctets, List.take_of_length_le hlt.le, hlt]

theorem readString_takes {bytes : Octets} (h : bytes.length < maxLength) :
    Takes (readString bytes.length) bytes bytes := by
  have hread : readString bytes.length = readOctets bytes.length := by
    funext input
    simp only [readString, if_neg (Nat.not_le_of_lt h)]
  rw [hread]
  exact readOctets_takes bytes

-- The additional information of the shortest head.
def shortestInfo (argument : Nat) : Nat :=
  if argument < 24 then argument
  else if argument < Nat.pow 2 8 then 24
  else if argument < Nat.pow 2 16 then 25
  else if argument < Nat.pow 2 32 then 26
  else 27

theorem Major.ofCode_code (major : Major) : ofCode major.code = major := by
  cases major <;> rfl

theorem toNat_first (major : Major) {info : Nat} (h : info < 32) :
    (UInt8.ofNat (32 * major.code + info)).toNat = 32 * major.code + info := by
  have hcode : major.code ≤ 7 := by cases major <;> decide
  rw [UInt8.toNat_ofNat']
  omega

theorem readHead_small (major : Major) {argument : Nat} (h : argument < 24) (rest : Octets) :
    readHead (UInt8.ofNat (32 * major.code + argument) :: rest) =
      .ok (⟨major, argument, argument⟩, rest) := by
  have hfirst := toNat_first major (by omega : argument < 32)
  have hmajor : (32 * major.code + argument) / 32 = major.code := by omega
  have hinfo : (32 * major.code + argument) % 32 = argument := by omega
  simp only [readHead, hfirst, hmajor, hinfo, Major.ofCode_code]
  -- no argument below 24 announces bytes of its own
  split
  case h_9 => rfl
  all_goals omega

theorem readHead_sized (major : Major) (hmajor : major ≠ .simple) {info count : Nat}
    (h : (info, count) ∈ [(24, 1), (25, 2), (26, 4), (27, 8)]) (bytes : Octets) :
    readHead (UInt8.ofNat (32 * major.code + info) :: bytes) =
      (readOctets count bytes).map fun (argument, rest) =>
        (⟨major, info, Octets.fromBigEndian argument⟩, rest) := by
  have hinfo : info < 32 := by
    simp at h
    omega
  have hfirst := toNat_first major hinfo
  have hdiv : (32 * major.code + info) / 32 = major.code := by omega
  have hmod : (32 * major.code + info) % 32 = info := by omega
  simp only [readHead, hfirst, hdiv, hmod, Major.ofCode_code]
  simp at h
  rcases h with ⟨rfl, rfl⟩ | ⟨rfl, rfl⟩ | ⟨rfl, rfl⟩ | ⟨rfl, rfl⟩
  · cases hread : readOctets 1 bytes with
    | error e => rfl
    | ok read => simp [bind, Except.bind, Except.map, pure, Except.pure, hmajor]
  all_goals
    cases readOctets _ bytes <;> rfl

theorem Takes.of_head {bytes : Octets} {first : UInt8} {head : Head}
    (h : Takes (fun input => readHead (first :: input)) bytes head) :
    Takes readHead (first :: bytes) head where
  whole rest := h.whole rest
  part := by
    intro piece hpiece hne
    cases piece with
    | nil => rfl
    | cons byte rest =>
      obtain ⟨rfl, hrest⟩ := List.cons_prefix_cons.mp hpiece
      exact h.part hrest fun heq => hne (by rw [heq])

theorem readHead_sized_takes {major : Major} (hmajor : major ≠ .simple) {info count argument : Nat}
    (h : (info, count) ∈ [(24, 1), (25, 2), (26, 4), (27, 8)]) (hlt : argument < 256 ^ count) :
    Takes readHead (UInt8.ofNat (32 * major.code + info) :: Octets.bigEndian count argument)
      ⟨major, info, argument⟩ := by
  have hread := readOctets_takes (Octets.bigEndian count argument)
  rw [Octets.length_bigEndian] at hread
  apply Takes.of_head
  constructor
  · intro rest
    rw [readHead_sized major hmajor h, hread.whole]
    simp only [Except.map, Octets.fromBigEndian_bigEndian hlt]
  · intro piece hpiece hne
    rw [readHead_sized major hmajor h, hread.part hpiece hne]
    rfl

theorem readHead_takes {major : Major} {argument : Nat} (h : argument < 2 ^ 64)
    (hmajor : major ≠ .simple ∨ argument < 24) :
    Takes readHead (head major argument) ⟨major, shortestInfo argument, argument⟩ := by
  unfold head shortestInfo
  split_ifs with hsmall hone htwo hfour
  · apply Takes.of_head
    exact ⟨fun rest => readHead_small major hsmall rest,
      fun hpiece hne => absurd (List.prefix_nil.mp hpiece) hne⟩
  all_goals
    have hother : major ≠ .simple := hmajor.resolve_right hsmall
  · exact readHead_sized_takes hother (by simp) hone
  · exact readHead_sized_takes hother (by simp) htwo
  · exact readHead_sized_takes hother (by simp) hfour
  · exact readHead_sized_takes hother (by simp) h

theorem shortestInfo_ne_indefinite (argument : Nat) : shortestInfo argument ≠ indefinite := by
  unfold shortestInfo indefinite
  split_ifs <;> omega

-- No head starts with the byte that ends an item of indefinite length.
theorem head_eq_cons (major : Major) (argument : Nat) :
    ∃ byte rest, head major argument = byte :: rest ∧ byte ≠ 0xff := by
  have hbyte {info : Nat} (hinfo : info < 28) : UInt8.ofNat (32 * major.code + info) ≠ 0xff := by
    intro heq
    have hnat := congrArg UInt8.toNat heq
    rw [toNat_first major (by omega)] at hnat
    have hff : (0xff : UInt8).toNat = 255 := rfl
    omega
  unfold head
  split_ifs with hsmall
  · exact ⟨_, _, rfl, hbyte (by omega)⟩
  all_goals exact ⟨_, _, rfl, hbyte (by decide)⟩

theorem readTimes_takes {read : Reader α} {encode : α → Octets} (as : List α) (found : Array α)
    (h : ∀ a ∈ as, Takes read (encode a) a) :
    Takes (readTimes read as.length found) (as.flatMap encode) (found.toList ++ as) := by
  induction as generalizing found with
  | nil =>
    rw [List.append_nil]
    exact Takes.pure found.toList
  | cons a rest ih =>
    have hrest := ih (found.push a) fun b hb => h b (List.mem_cons_of_mem a hb)
    have hlist : (found.push a).toList ++ rest = found.toList ++ a :: rest := by simp
    rw [hlist] at hrest
    exact (h a List.mem_cons_self).bind (fun b => readTimes read rest.length (found.push b)) hrest

namespace Item

mutual

theorem toList_writeTo (written : Array UInt8) :
    ∀ item : Item, (item.writeTo written).toList = written.toList ++ item.encode
  | .unsigned n => by simp [encode, writeTo]
  | .negative n => by simp [encode, writeTo]
  | .bytes value => by simp [encode, writeTo]
  | .text chunks => by simp [encode, writeTo]
  | .array items => by
    rw [encode, writeTo, writeTo, toList_writeItems _ items, toList_writeItems _ items]
    simp
  | .map entries => by
    rw [encode, writeTo, writeTo, toList_writeEntries _ entries, toList_writeEntries _ entries]
    simp
  | .tag number content => by
    rw [encode, writeTo, writeTo, toList_writeTo _ content, toList_writeTo _ content]
    simp
  | .simple n => by simp [encode, writeTo]
  | .float size pattern => by simp [encode, writeTo]

theorem toList_writeItems (written : Array UInt8) :
    ∀ items : List Item, (writeItems written items).toList = written.toList ++ items.flatMap encode
  | [] => by simp [writeItems]
  | item :: rest => by
    rw [writeItems, toList_writeItems _ rest, toList_writeTo _ item, List.flatMap_cons,
      List.append_assoc]

theorem toList_writeEntries (written : Array UInt8) :
    ∀ entries : List (Item × Item), (writeEntries written entries).toList =
      written.toList ++ entries.flatMap fun (key, value) => key.encode ++ value.encode
  | [] => by simp [writeEntries]
  | (key, value) :: rest => by
    rw [writeEntries, toList_writeEntries _ rest, toList_writeTo _ value, toList_writeTo _ key,
      List.flatMap_cons, List.append_assoc, List.append_assoc, List.append_assoc]

end

theorem encode_unsigned (n : Nat) : (unsigned n).encode = head .unsigned n := by
  simp [encode, writeTo]

theorem encode_negative (n : Nat) : (negative n).encode = head .negative n := by
  simp [encode, writeTo]

theorem encode_bytes (value : Octets) :
    (bytes value).encode = head .bytes value.length ++ value := by
  simp [encode, writeTo]

theorem encode_text (value : Octets) :
    (text [value]).encode = head .text value.length ++ value := by
  simp [encode, writeTo]

theorem encode_simple (n : Nat) : (simple n).encode = head .simple n := by
  simp [encode, writeTo]

theorem encode_array (items : List Item) :
    (array items).encode = head .array items.length ++ items.flatMap encode := by
  rw [encode, writeTo, toList_writeItems]
  simp

theorem encode_map (entries : List (Item × Item)) :
    (map entries).encode =
      head .map entries.length ++
        entries.flatMap fun (key, value) => key.encode ++ value.encode := by
  rw [encode, writeTo, toList_writeEntries]
  simp

-- Items without tags and fractions, with texts in one piece, whose numbers have 64 bits, whose
-- lengths are within the limits of a reader and that are nested at most so many levels deep.
def Plain : Nat → Item → Prop
  | _, .unsigned n => n < 2 ^ 64
  | _, .negative n => n < 2 ^ 64
  | _, .bytes value => value.length < maxLength
  | _, .text chunks => ∃ value, chunks = [value] ∧ value.length < maxLength
  | levels + 1, .array items => items.length ≤ maxElements ∧ ∀ item ∈ items, Plain levels item
  | levels + 1, .map entries =>
    entries.length ≤ maxPairs ∧ ∀ entry ∈ entries, Plain levels entry.1 ∧ Plain levels entry.2
  | _, .simple n => n < 24
  | _, _ => False

theorem Plain.encode_eq_cons {levels : Nat} {item : Item} (h : item.Plain levels) :
    ∃ byte rest, item.encode = byte :: rest ∧ byte ≠ 0xff := by
  have hhead (major : Major) (argument : Nat) (bytes : Octets) :
      ∃ byte rest, head major argument ++ bytes = byte :: rest ∧ byte ≠ 0xff := by
    obtain ⟨byte, rest, heq, hbyte⟩ := head_eq_cons major argument
    exact ⟨byte, rest ++ bytes, by rw [heq, List.cons_append], hbyte⟩
  cases item with
  | unsigned n => exact encode_unsigned n ▸ head_eq_cons _ _
  | negative n => exact encode_negative n ▸ head_eq_cons _ _
  | bytes value => exact encode_bytes value ▸ hhead _ _ _
  | text chunks =>
    obtain ⟨value, rfl, -⟩ : ∃ value, chunks = [value] ∧ _ := by simpa [Plain] using h
    exact encode_text value ▸ hhead _ _ _
  | array items => exact encode_array items ▸ hhead _ _ _
  | map entries => exact encode_map entries ▸ hhead _ _ _
  | tag number content => simp [Plain] at h
  | simple n => exact encode_simple n ▸ head_eq_cons _ _
  | float size pattern => simp [Plain] at h

end Item

-- An item that is no tag is read as its head and then what the head announces.
theorem item_takes (below : Option Level) {major : Major} {argument : Nat} {bytes : Octets}
    {item : Item} (hargument : argument < 2 ^ 64) (hsimple : major ≠ .simple ∨ argument < 24)
    (htag : major ≠ .tag)
    (hbody : Takes (readBody (below.map Level.item) ⟨major, shortestInfo argument, argument⟩)
      bytes item) :
    Takes (Level.above below).item (head major argument ++ bytes) item := by
  refine (readHead_takes hargument hsimple).bind (fun head rest =>
    if head.major = .tag then do
      let found ← (Level.above below).content rest
      return (.tag head.argument found.1, found.2)
    else readBody (below.map Level.item) head rest) ?_
  simp only [if_neg htag]
  exact hbody

-- A value is never taken for the end of the map, as its first byte is no break.
theorem readEntry_takes {read : Reader Item} {key value : Item}
    (hkey : Takes read key.encode key) (hvalue : Takes read value.encode value)
    (hfirst : ∃ byte rest, value.encode = byte :: rest ∧ byte ≠ 0xff) :
    Takes (readEntry read) (key.encode ++ value.encode) (key, value) := by
  refine hkey.bind (fun key rest =>
    if rest.head? = some 0xff then throw .illFormed
    else read rest >>= fun found => .ok ((key, found.1), found.2)) ?_
  have hpair := hvalue.map (key, ·)
  obtain ⟨byte, rest, heq, hbyte⟩ := hfirst
  rw [heq] at hpair ⊢
  constructor
  · intro more
    have hhead : (byte :: rest ++ more).head? ≠ some 0xff := by simpa using hbyte
    simp only [if_neg hhead]
    exact hpair.whole more
  · intro piece hpiece hne
    have hhead : piece.head? ≠ some 0xff := by
      cases piece with
      | nil => simp
      | cons first piece =>
        obtain ⟨rfl, -⟩ := List.cons_prefix_cons.mp hpiece
        simpa using hbyte
    simp only [if_neg hhead]
    exact hpair.part hpiece hne

theorem readPieces_takes (major : Major) {bytes : Octets} (h : bytes.length < maxLength) :
    Takes (readPieces ⟨major, shortestInfo bytes.length, bytes.length⟩) bytes [bytes] := by
  have hread : readPieces ⟨major, shortestInfo bytes.length, bytes.length⟩ =
      fun input => readString bytes.length input >>= fun (value, rest) => .ok ([value], rest) := by
    funext input
    simp only [readPieces, if_neg (shortestInfo_ne_indefinite _)]
    rfl
  rw [hread]
  exact (readString_takes h).map ([·])

theorem readElements_takes {read : Reader α} {encode : α → Octets} {as : List α} {limit : Nat}
    (major : Major) (tooMany : Error) (hlimit : as.length ≤ limit) (hlength : limit < maxLength)
    (h : ∀ a ∈ as, Takes read (encode a) a) :
    Takes (readElements read ⟨major, shortestInfo as.length, as.length⟩ limit tooMany)
      (as.flatMap encode) as := by
  have hread : readElements read ⟨major, shortestInfo as.length, as.length⟩ limit tooMany =
      readTimes read as.length #[] := by
    funext input
    have hshort : ¬maxLength ≤ as.length := by omega
    have hfew : ¬limit < as.length := by omega
    simp only [readElements, if_neg (shortestInfo_ne_indefinite _), if_neg hshort, if_neg hfew]
  rw [hread]
  exact readTimes_takes as #[] h

theorem maxLength_lt : maxLength < 2 ^ 64 := by decide

theorem maxElements_lt : maxElements < maxLength := by decide

theorem maxPairs_lt : maxPairs < maxLength := by decide

-- Items that hold no others are read on every level.
theorem flat_takes (below : Option Level) {levels : Nat} {item : Item} (h : item.Plain levels)
    (harray : ∀ items, item ≠ .array items) (hmap : ∀ entries, item ≠ .map entries) :
    Takes (Level.above below).item item.encode item := by
  cases item with
  | unsigned n =>
    have hn : n < 2 ^ 64 := by simpa [Item.Plain] using h
    rw [Item.encode_unsigned, ← List.append_nil (head _ _)]
    apply item_takes below hn (by simp) (by simp)
    exact Takes.pure (Item.unsigned n)
  | negative n =>
    have hn : n < 2 ^ 64 := by simpa [Item.Plain] using h
    rw [Item.encode_negative, ← List.append_nil (head _ _)]
    apply item_takes below hn (by simp) (by simp)
    exact Takes.pure (Item.negative n)
  | bytes value =>
    have hlength : value.length < maxLength := by simpa [Item.Plain] using h
    have hvalue : [value].flatten = value := List.flatten_singleton
    rw [Item.encode_bytes]
    apply item_takes below (hlength.trans maxLength_lt) (by simp) (by simp)
    have hpieces := (readPieces_takes .bytes hlength).map fun pieces => Item.bytes pieces.flatten
    rw [hvalue] at hpieces
    exact hpieces
  | text chunks =>
    obtain ⟨value, rfl, hlength⟩ : ∃ value, chunks = [value] ∧ value.length < maxLength := by
      simpa [Item.Plain] using h
    rw [Item.encode_text]
    apply item_takes below (hlength.trans maxLength_lt) (by simp) (by simp)
    exact (readPieces_takes .text hlength).map Item.text
  | array items => exact absurd rfl (harray items)
  | map entries => exact absurd rfl (hmap entries)
  | tag number content => simp [Item.Plain] at h
  | simple n =>
    have hn : n < 24 := by simpa [Item.Plain] using h
    have hinfo : shortestInfo n = n := by simp [shortestInfo, hn]
    rw [Item.encode_simple, ← List.append_nil (head _ _)]
    apply item_takes below (by omega) (.inr hn) (by simp)
    have hbody : readBody (below.map Level.item) ⟨.simple, shortestInfo n, n⟩ =
        fun input => .ok (Item.simple n, input) := by
      funext input
      simp only [readBody, hinfo]
      split
      case h_4 => rfl
      all_goals omega
    rw [hbody]
    exact Takes.pure (Item.simple n)
  | float size pattern => simp [Item.Plain] at h

-- What stands inside an array or a map is read one level below it.
theorem level_takes {levels : Nat} {item : Item} (h : item.Plain levels) :
    Takes (level levels).item item.encode item := by
  induction levels generalizing item with
  | zero =>
    apply flat_takes none h
    · rintro items rfl
      simp [Item.Plain] at h
    · rintro entries rfl
      simp [Item.Plain] at h
  | succ levels ih =>
    by_cases hflat : (∀ items, item ≠ .array items) ∧ ∀ entries, item ≠ .map entries
    · exact flat_takes (some (level levels)) h hflat.1 hflat.2
    cases item with
    | array items =>
      obtain ⟨hlength, hitems⟩ :
          items.length ≤ maxElements ∧ ∀ item ∈ items, item.Plain levels := by
        simpa [Item.Plain] using h
      have hcount := (hlength.trans_lt maxElements_lt).trans maxLength_lt
      rw [Item.encode_array]
      apply item_takes (some (level levels)) hcount (by simp) (by simp)
      exact (readElements_takes .array .tooManyElements hlength maxElements_lt
        fun item hitem => ih (hitems item hitem)).map Item.array
    | map entries =>
      obtain ⟨hlength, hentries⟩ : entries.length ≤ maxPairs ∧
          ∀ entry ∈ entries, entry.1.Plain levels ∧ entry.2.Plain levels := by
        simpa [Item.Plain] using h
      have hcount := (hlength.trans_lt maxPairs_lt).trans maxLength_lt
      rw [Item.encode_map]
      apply item_takes (some (level levels)) hcount (by simp) (by simp)
      refine (readElements_takes .map .tooManyPairs hlength maxPairs_lt ?_).map Item.map
      intro entry hentry
      obtain ⟨hkey, hvalue⟩ := hentries entry hentry
      exact readEntry_takes (ih hkey) (ih hvalue) hvalue.encode_eq_cons
    | unsigned | negative | bytes | text | tag | simple | float => simp at hflat

theorem parse_encode {item : Item} (h : item.Plain maxLevels) : parse item.encode = .ok item := by
  obtain ⟨byte, rest, hcons, -⟩ := h.encode_eq_cons
  have hne : item.encode ≠ [] := by simp [hcons]
  have hread := (level_takes h).whole []
  rw [List.append_nil] at hread
  simp only [parse, if_neg hne, hread]
  rfl

-- An item that is no tag fails as what its head announces does.
theorem item_eq (below : Option Level) {major : Major} {argument : Nat}
    (hargument : argument < 2 ^ 64) (hsimple : major ≠ .simple ∨ argument < 24)
    (htag : major ≠ .tag) (bytes : Octets) :
    (Level.above below).item (head major argument ++ bytes) =
      readBody (below.map Level.item) ⟨major, shortestInfo argument, argument⟩ bytes := by
  have hhead := (readHead_takes hargument hsimple).whole bytes
  simp only [Level.above, hhead]
  exact if_neg htag

theorem level_array_overfull (levels : Nat) {items : List Item} (hmany : maxElements < items.length)
    (hlength : items.length < maxLength) (rest : Octets) :
    (level (levels + 1)).item ((Item.array items).encode ++ rest) = .error .tooManyElements := by
  have hshort : ¬maxLength ≤ items.length := by omega
  rw [Item.encode_array, List.append_assoc]
  refine (item_eq (some (level levels)) (hlength.trans maxLength_lt) (by simp) (by simp) _).trans ?_
  simp only [readBody, Option.map_some, readElements, if_neg (shortestInfo_ne_indefinite _),
    if_neg hshort, if_pos hmany]
  rfl

theorem readEntry_fails {read : Reader Item} {key : Item} (hkey : Takes read key.encode key)
    {bytes : Octets} (hfirst : bytes.head? ≠ some 0xff) {e : Error} (h : read bytes = .error e) :
    readEntry read (key.encode ++ bytes) = .error e := by
  simp only [readEntry, hkey.whole]
  show (if bytes.head? = some 0xff then _ else _) = _
  rw [if_neg hfirst, h]
  rfl

-- Elements that can be read do not keep the one behind them from failing.
theorem readTimes_fails {read : Reader α} {encode : α → Octets} (as : List α) (found : Array α)
    (h : ∀ a ∈ as, Takes read (encode a) a) {bytes : Octets} {e : Error}
    (hbytes : read bytes = .error e) (more : Nat) :
    readTimes read (as.length + (more + 1)) found (as.flatMap encode ++ bytes) = .error e := by
  induction as generalizing found with
  | nil =>
    simp only [List.length_nil, List.flatMap_nil, List.nil_append, readTimes, hbytes]
    rfl
  | cons a rest ih =>
    have hcount : (a :: rest).length + (more + 1) = rest.length + (more + 1) + 1 := by
      rw [List.length_cons]
      omega
    rw [hcount, List.flatMap_cons, List.append_assoc]
    simp only [readTimes, (h a List.mem_cons_self).whole]
    exact ih _ fun b hb => h b (List.mem_cons_of_mem a hb)

-- A map cannot be read that holds an array of too many elements, whatever stands behind it.
theorem level_map_overfull {levels : Nat} {entries more : List (Item × Item)} {key : Item}
    {items : List Item} (hentries : ∀ entry ∈ entries,
      entry.1.Plain (levels + 1) ∧ entry.2.Plain (levels + 1))
    (hkey : key.Plain (levels + 1)) (hmany : maxElements < items.length)
    (hlength : items.length < maxLength)
    (hpairs : (entries ++ (key, .array items) :: more).length ≤ maxPairs) :
    (level (levels + 2)).item (Item.map (entries ++ (key, .array items) :: more)).encode =
      .error .tooManyElements := by
  have hcount := (hpairs.trans_lt maxPairs_lt).trans maxLength_lt
  have hshort : ¬maxLength ≤ (entries ++ (key, .array items) :: more).length :=
    Nat.not_le_of_lt (hpairs.trans_lt maxPairs_lt)
  rw [Item.encode_map]
  refine (item_eq (some (level (levels + 1))) hcount (by simp) (by simp) _).trans ?_
  simp only [readBody, Option.map_some, readElements, if_neg (shortestInfo_ne_indefinite _),
    if_neg hshort, if_neg (Nat.not_lt_of_le hpairs)]
  have hgood (entry : Item × Item) (hentry : entry ∈ entries) :
      Takes (readEntry (level (levels + 1)).item) (entry.1.encode ++ entry.2.encode) entry := by
    obtain ⟨hfirst, hsecond⟩ := hentries entry hentry
    exact readEntry_takes (level_takes hfirst) (level_takes hsecond) hsecond.encode_eq_cons
  have hbad (rest : Octets) : readEntry (level (levels + 1)).item
      (key.encode ++ ((Item.array items).encode ++ rest)) = .error .tooManyElements := by
    apply readEntry_fails (level_takes hkey) _ (level_array_overfull levels hmany hlength rest)
    obtain ⟨byte, tail, hcons, hbyte⟩ := head_eq_cons .array items.length
    rw [Item.encode_array, hcons]
    simpa using hbyte
  have htimes := readTimes_fails entries #[] hgood
    (hbad (more.flatMap fun (key, value) => key.encode ++ value.encode)) more.length
  rw [List.length_append, List.length_cons, List.flatMap_append, List.flatMap_cons,
    List.append_assoc, htimes]
  rfl

theorem parse_overfull {entries more : List (Item × Item)} {key : Item} {items : List Item}
    (hentries : ∀ entry ∈ entries, entry.1.Plain 31 ∧ entry.2.Plain 31) (hkey : key.Plain 31)
    (hmany : maxElements < items.length) (hlength : items.length < maxLength)
    (hpairs : (entries ++ (key, .array items) :: more).length ≤ maxPairs) :
    parse (Item.map (entries ++ (key, .array items) :: more)).encode = .error .tooManyElements := by
  have hread := level_map_overfull hentries hkey hmany hlength hpairs
  have hne : (Item.map (entries ++ (key, .array items) :: more)).encode ≠ [] := by
    obtain ⟨byte, tail, hcons, -⟩ :=
      head_eq_cons .map (entries ++ (key, Item.array items) :: more).length
    rw [Item.encode_map, hcons]
    exact List.cons_ne_nil _ _
  simp only [parse, if_neg hne]
  show ((level (30 + 2)).item _ >>= _) = _
  rw [hread]
  rfl

end Cbor

end RegisterMachine
