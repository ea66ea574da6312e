import KPlugin.Lib.Avx2
import KPlugin.Blake2.Generic

/-!
# `blake2b_compress_avx2`

The vector implementation: the four rows of the working vector in four
registers, the message block broadcast into eight. Each of the forty
`BLAKE2B_LOAD_MSG_r_k` macros picks the four words that the `k`-th quarter of
round `r` adds; the last `rounds % 10` rounds gather them by the table `indices`
instead. Both are the schedule in one lane order (`loadOrder`), in which the
diagonals start one column further left than in the portable code, because the
diagonalisation rotates rows `a`, `c`, `d` and keeps `b`.
-/

namespace KPlugin.Blake2
open Blocks Loop Avx2

/-- The message registers `m0` to `m7`. -/
structure Msg where
  (m0 m1 m2 m3 m4 m5 m6 m7 : M256i)

/-- Each register holds two consecutive words, twice. -/
def broadcastMsg (m : Vector Word 16) : Msg where
  m0 := broadcastsi128 (m.get 0) (m.get 1)
  m1 := broadcastsi128 (m.get 2) (m.get 3)
  m2 := broadcastsi128 (m.get 4) (m.get 5)
  m3 := broadcastsi128 (m.get 6) (m.get 7)
  m4 := broadcastsi128 (m.get 8) (m.get 9)
  m5 := broadcastsi128 (m.get 10) (m.get 11)
  m6 := broadcastsi128 (m.get 12) (m.get 13)
  m7 := broadcastsi128 (m.get 14) (m.get 15)

/-! ## `BLAKE2B_LOAD_MSG_r_k` -/

def blake2bLoadMsg_0_1 (M : Msg) : M256i :=
  let t0 := unpackloEpi64 M.m0 M.m1
  let t1 := unpackloEpi64 M.m2 M.m3
  blendEpi32 t0 t1 0xF0

def blake2bLoadMsg_0_2 (M : Msg) : M256i :=
  let t0 := unpackhiEpi64 M.m0 M.m1
  let t1 := unpackhiEpi64 M.m2 M.m3
  blendEpi32 t0 t1 0xF0

def blake2bLoadMsg_0_3 (M : Msg) : M256i :=
  let t0 := unpackloEpi64 M.m7 M.m4
  let t1 := unpackloEpi64 M.m5 M.m6
  blendEpi32 t0 t1 0xF0

def blake2bLoadMsg_0_4 (M : Msg) : M256i :=
  let t0 := unpackhiEpi64 M.m7 M.m4
  let t1 := unpackhiEpi64 M.m5 M.m6
  blendEpi32 t0 t1 0xF0

def blake2bLoadMsg_1_1 (M : Msg) : M256i :=
  let t0 := unpackloEpi64 M.m7 M.m2
  let t1 := unpackhiEpi64 M.m4 M.m6
  blendEpi32 t0 t1 0xF0

def blake2bLoadMsg_1_2 (M : Msg) : M256i :=
  let t0 := unpackloEpi64 M.m5 M.m4
  let t1 := alignrEpi8 M.m3 M.m7 8
  blendEpi32 t0 t1 0xF0

def blake2bLoadMsg_1_3 (M : Msg) : M256i :=
  let t0 := unpackhiEpi64 M.m2 M.m0
  let t1 := blendEpi32 M.m5 M.m0 0x33
  blendEpi32 t0 t1 0xF0

def blake2bLoadMsg_1_4 (M : Msg) : M256i :=
  let t0 := alignrEpi8 M.m6 M.m1 8
  let t1 := blendEpi32 M.m3 M.m1 0x33
  blendEpi32 t0 t1 0xF0

def blake2bLoadMsg_2_1 (M : Msg) : M256i :=
  let t0 := alignrEpi8 M.m6 M.m5 8
  let t1 := unpackhiEpi64 M.m2 M.m7
  blendEpi32 t0 t1 0xF0

def blake2bLoadMsg_2_2 (M : Msg) : M256i :=
  let t0 := unpackloEpi64 M.m4 M.m0
  let t1 := blendEpi32 M.m6 M.m1 0x33
  blendEpi32 t0 t1 0xF0

def blake2bLoadMsg_2_3 (M : Msg) : M256i :=
  let t0 := alignrEpi8 M.m5 M.m4 8
  let t1 := unpackhiEpi64 M.m1 M.m3
  blendEpi32 t0 t1 0xF0

def blake2bLoadMsg_2_4 (M : Msg) : M256i :=
  let t0 := unpackloEpi64 M.m2 M.m7
  let t1 := blendEpi32 M.m0 M.m3 0x33
  blendEpi32 t0 t1 0xF0

def blake2bLoadMsg_3_1 (M : Msg) : M256i :=
  let t0 := unpackhiEpi64 M.m3 M.m1
  let t1 := unpackhiEpi64 M.m6 M.m5
  blendEpi32 t0 t1 0xF0

def blake2bLoadMsg_3_2 (M : Msg) : M256i :=
  let t0 := unpackhiEpi64 M.m4 M.m0
  let t1 := unpackloEpi64 M.m6 M.m7
  blendEpi32 t0 t1 0xF0

def blake2bLoadMsg_3_3 (M : Msg) : M256i :=
  let t0 := alignrEpi8 M.m1 M.m7 8
  let t1 := shuffleEpi32 M.m2 (mmShuffle 1 0 3 2)
  blendEpi32 t0 t1 0xF0

def blake2bLoadMsg_3_4 (M : Msg) : M256i :=
  let t0 := unpackloEpi64 M.m4 M.m3
  let t1 := unpackloEpi64 M.m5 M.m0
  blendEpi32 t0 t1 0xF0

def blake2bLoadMsg_4_1 (M : Msg) : M256i :=
  let t0 := unpackhiEpi64 M.m4 M.m2
  let t1 := unpackloEpi64 M.m1 M.m5
  blendEpi32 t0 t1 0xF0

def blake2bLoadMsg_4_2 (M : Msg) : M256i :=
  let t0 := blendEpi32 M.m3 M.m0 0x33
  let t1 := blendEpi32 M.m7 M.m2 0x33
  blendEpi32 t0 t1 0xF0

def blake2bLoadMsg_4_3 (M : Msg) : M256i :=
  let t0 := alignrEpi8 M.m7 M.m1 8
  let t1 := alignrEpi8 M.m3 M.m5 8
  blendEpi32 t0 t1 0xF0

def blake2bLoadMsg_4_4 (M : Msg) : M256i :=
  let t0 := unpackhiEpi64 M.m6 M.m0
  let t1 := unpackloEpi64 M.m6 M.m4
  blendEpi32 t0 t1 0xF0

def blake2bLoadMsg_5_1 (M : Msg) : M256i :=
  let t0 := unpackloEpi64 M.m1 M.m3
  let t1 := unpackloEpi64 M.m0 M.m4
  blendEpi32 t0 t1 0xF0

def blake2bLoadMsg_5_2 (M : Msg) : M256i :=
  let t0 := unpackloEpi64 M.m6 M.m5
  let t1 := unpackhiEpi64 M.m5 M.m1
  blendEpi32 t0 t1 0xF0

def blake2bLoadMsg_5_3 (M : Msg) : M256i :=
  let t0 := alignrEpi8 M.m2 M.m0 8
  let t1 := unpackhiEpi64 M.m3 M.m7
  blendEpi32 t0 t1 0xF0

def blake2bLoadMsg_5_4 (M : Msg) : M256i :=
  let t0 := unpackhiEpi64 M.m4 M.m6
  let t1 := alignrEpi8 M.m7 M.m2 8
  blendEpi32 t0 t1 0xF0

def blake2bLoadMsg_6_1 (M : Msg) : M256i :=
  let t0 := blendEpi32 M.m0 M.m6 0x33
  let t1 := unpackloEpi64 M.m7 M.m2
  blendEpi32 t0 t1 0xF0

def blake2bLoadMsg_6_2 (M : Msg) : M256i :=
  let t0 := unpackhiEpi64 M.m2 M.m7
  let t1 := alignrEpi8 M.m5 M.m6 8
  blendEpi32 t0 t1 0xF0

def blake2bLoadMsg_6_3 (M : Msg) : M256i :=
  let t0 := unpackloEpi64 M.m4 M.m0
  let t1 := blendEpi32 M.m4 M.m3 0x33
  blendEpi32 t0 t1 0xF0

def blake2bLoadMsg_6_4 (M : Msg) : M256i :=
  let t0 := unpackhiEpi64 M.m5 M.m3
  let t1 := shuffleEpi32 M.m1 (mmShuffle 1 0 3 2)
  blendEpi32 t0 t1 0xF0

def blake2bLoadMsg_7_1 (M : Msg) : M256i :=
  let t0 := unpackhiEpi64 M.m6 M.m3
  let t1 := blendEpi32 M.m1 M.m6 0x33
  blendEpi32 t0 t1 0xF0

def blake2bLoadMsg_7_2 (M : Msg) : M256i :=
  let t0 := alignrEpi8 M.m7 M.m5 8
  let t1 := unpackhiEpi64 M.m0 M.m4
  blendEpi32 t0 t1 0xF0

def blake2bLoadMsg_7_3 (M : Msg) : M256i :=
  let t0 := blendEpi32 M.m2 M.m1 0x33
  let t1 := alignrEpi8 M.m4 M.m7 8
  blendEpi32 t0 t1 0xF0

def blake2bLoadMsg_7_4 (M : Msg) : M256i :=
  let t0 := unpackloEpi64 M.m5 M.m0
  let t1 := unpackloEpi64 M.m2 M.m3
  blendEpi32 t0 t1 0xF0

def blake2bLoadMsg_8_1 (M : Msg) : M256i :=
  let t0 := unpackloEpi64 M.m3 M.m7
  let t1 := alignrEpi8 M.m0 M.m5 8
  blendEpi32 t0 t1 0xF0

def blake2bLoadMsg_8_2 (M : Msg) : M256i :=
  let t0 := unpackhiEpi64 M.m7 M.m4
  let t1 := alignrEpi8 M.m4 M.m1 8
  blendEpi32 t0 t1 0xF0

def blake2bLoadMsg_8_3 (M : Msg) : M256i :=
  let t0 := unpackloEpi64 M.m5 M.m6
  let t1 := unpackhiEpi64 M.m6 M.m0
  blendEpi32 t0 t1 0xF0

def blake2bLoadMsg_8_4 (M : Msg) : M256i :=
  let t0 := alignrEpi8 M.m1 M.m2 8
  let t1 := alignrEpi8 M.m2 M.m3 8
  blendEpi32 t0 t1 0xF0

def blake2bLoadMsg_9_1 (M : Msg) : M256i :=
  let t0 := unpackloEpi64 M.m5 M.m4
  let t1 := unpackhiEpi64 M.m3 M.m0
  blendEpi32 t0 t1 0xF0

def blake2bLoadMsg_9_2 (M : Msg) : M256i :=
  let t0 := unpackloEpi64 M.m1 M.m2
  let t1 := blendEpi32 M.m2 M.m3 0x33
  blendEpi32 t0 t1 0xF0

def blake2bLoadMsg_9_3 (M : Msg) : M256i :=
  let t0 := unpackhiEpi64 M.m6 M.m7
  let t1 := unpackhiEpi64 M.m4 M.m1
  blendEpi32 t0 t1 0xF0

def blake2bLoadMsg_9_4 (M : Msg) : M256i :=
  let t0 := blendEpi32 M.m5 M.m0 0x33
  let t1 := unpackloEpi64 M.m7 M.m6
  blendEpi32 t0 t1 0xF0

/-- The macro the preprocessor pastes together from `r` and `k + 1`. -/
def blake2bLoadMsg : Fin 10 → Fin 4 → Msg → M256i :=
  ![![blake2bLoadMsg_0_1, blake2bLoadMsg_0_2, blake2bLoadMsg_0_3, blake2bLoadMsg_0_4],
    ![blake2bLoadMsg_1_1, blake2bLoadMsg_1_2, blake2bLoadMsg_1_3, blake2bLoadMsg_1_4],
    ![blake2bLoadMsg_2_1, blake2bLoadMsg_2_2, blake2bLoadMsg_2_3, blake2bLoadMsg_2_4],
    ![blake2bLoadMsg_3_1, blake2bLoadMsg_3_2, blake2bLoadMsg_3_3, blake2bLoadMsg_3_4],
    ![blake2bLoadMsg_4_1, blake2bLoadMsg_4_2, blake2bLoadMsg_4_3, blake2bLoadMsg_4_4],
    ![blake2bLoadMsg_5_1, blake2bLoadMsg_5_2, blake2bLoadMsg_5_3, blake2bLoadMsg_5_4],
    ![blake2bLoadMsg_6_1, blake2bLoadMsg_6_2, blake2bLoadMsg_6_3, blake2bLoadMsg_6_4],
    ![blake2bLoadMsg_7_1, blake2bLoadMsg_7_2, blake2bLoadMsg_7_3, blake2bLoadMsg_7_4],
    ![blake2bLoadMsg_8_1, blake2bLoadMsg_8_2, blake2bLoadMsg_8_3, blake2bLoadMsg_8_4],
    ![blake2bLoadMsg_9_1, blake2bLoadMsg_9_2, blake2bLoadMsg_9_3, blake2bLoadMsg_9_4]]

/-- `indices[12][16]`. -/
def indices : Fin 12 → Fin 16 → Fin 16 :=
  ![![0, 2, 4, 6, 1, 3, 5, 7, 14, 8, 10, 12, 15, 9, 11, 13],
    ![14, 4, 9, 13, 10, 8, 15, 6, 5, 1, 0, 11, 3, 12, 2, 7],
    ![11, 12, 5, 15, 8, 0, 2, 13, 9, 10, 3, 7, 4, 14, 6, 1],
    ![7, 3, 13, 11, 9, 1, 12, 14, 15, 2, 5, 4, 8, 6, 10, 0],
    ![9, 5, 2, 10, 0, 7, 4, 15, 3, 14, 11, 6, 13, 1, 12, 8],
    ![2, 6, 0, 8, 12, 10, 11, 3, 1, 4, 7, 15, 9, 13, 5, 14],
    ![12, 1, 14, 4, 5, 15, 13, 10, 8, 0, 6, 9, 11, 7, 3, 2],
    ![13, 7, 12, 3, 11, 14, 1, 9, 2, 5, 15, 8, 10, 0, 4, 6],
    ![6, 14, 11, 0, 15, 9, 3, 8, 10, 12, 13, 1, 5, 2, 7, 4],
    ![10, 8, 7, 1, 2, 4, 6, 5, 13, 15, 9, 3, 0, 11, 14, 12],
    ![0, 2, 4, 6, 1, 3, 5, 7, 14, 8, 10, 12, 15, 9, 11, 13],
    ![14, 4, 9, 13, 10, 8, 15, 6, 5, 1, 0, 11, 3, 12, 2, 7]]

/-- `BLAKE2B_LOAD_MSG_i_1` to `BLAKE2B_LOAD_MSG_i_4`. -/
def blake2bLoadMsg_i (m : Vector Word 16) (i : Fin 12) (k : Fin 4) : M256i :=
  i32gatherEpi64 m fun j => indices i (columns (j, k))

/-! ## Rounds -/

/-- The registers `a`, `b`, `c`, `d`: the rows of the working vector. -/
structure Rows where
  (a b c d : M256i)

/-- `ROTATE16`. -/
def rotate16 : M256i :=
  setrEpi8 #v[2, 3, 4, 5, 6, 7, 0, 1, 10, 11, 12, 13, 14, 15, 8, 9,
    2, 3, 4, 5, 6, 7, 0, 1, 10, 11, 12, 13, 14, 15, 8, 9]

/-- `ROTATE24`. -/
def rotate24 : M256i :=
  setrEpi8 #v[3, 4, 5, 6, 7, 0, 1, 2, 11, 12, 13, 14, 15, 8, 9, 10,
    3, 4, 5, 6, 7, 0, 1, 2, 11, 12, 13, 14, 15, 8, 9, 10]

def rot32 (x : M256i) : M256i := shuffleEpi32 x (mmShuffle 2 3 0 1)
def rot24 (x : M256i) : M256i := shuffleEpi8 x rotate24
def rot16 (x : M256i) : M256i := shuffleEpi8 x rotate16
def rot63 (x : M256i) : M256i := orSi256 (srliEpi64 x 63) (addEpi64 x x)

/-- `BLAKE2B_G1_V1`. -/
def blake2bG1V1 (s : Rows) (m : M256i) : Rows :=
  let a := addEpi64 s.a m
  let a := addEpi64 a s.b
  let d := xorSi256 s.d a
  let d := rot32 d
  let c := addEpi64 s.c d
  let b := xorSi256 s.b c
  let b := rot24 b
  ⟨a, b, c, d⟩

/-- `BLAKE2B_G2_V1`. -/
def blake2bG2V1 (s : Rows) (m : M256i) : Rows :=
  let a := addEpi64 s.a m
  let a := addEpi64 a s.b
  let d := xorSi256 s.d a
  let d := rot16 d
  let c := addEpi64 s.c d
  let b := xorSi256 s.b c
  let b := rot63 b
  ⟨a, b, c, d⟩

/-- `BLAKE2B_DIAG_V1`. -/
def blake2bDiagV1 (s : Rows) : Rows where
  a := permute4x64Epi64 s.a (mmShuffle 2 1 0 3)
  b := s.b
  c := permute4x64Epi64 s.c (mmShuffle 0 3 2 1)
  d := permute4x64Epi64 s.d (mmShuffle 1 0 3 2)

/-- `BLAKE2B_UNDIAG_V1`. -/
def blake2bUndiagV1 (s : Rows) : Rows where
  a := permute4x64Epi64 s.a (mmShuffle 0 3 2 1)
  b := s.b
  c := permute4x64Epi64 s.c (mmShuffle 2 1 0 3)
  d := permute4x64Epi64 s.d (mmShuffle 1 0 3 2)

/-- `BLAKE2B_ROUND_V1` with the loads of its round. -/
def blake2bRoundV1 (load : Fin 4 → M256i) (s : Rows) : Rows :=
  let s := blake2bG1V1 s (load 0)
  let s := blake2bG2V1 s (load 1)
  let s := blake2bDiagV1 s
  let s := blake2bG1V1 s (load 2)
  let s := blake2bG2V1 s (load 3)
  blake2bUndiagV1 s

/-- The body of the first loop: rounds 0 to 9 by their macros. -/
def tenRounds (M : Msg) (s : Rows) : Rows :=
  let s := blake2bRoundV1 (fun k => blake2bLoadMsg 0 k M) s
  let s := blake2bRoundV1 (fun k => blake2bLoadMsg 1 k M) s
  let s := blake2bRoundV1 (fun k => blake2bLoadMsg 2 k M) s
  let s := blake2bRoundV1 (fun k => blake2bLoadMsg 3 k M) s
  let s := blake2bRoundV1 (fun k => blake2bLoadMsg 4 k M) s
  let s := blake2bRoundV1 (fun k => blake2bLoadMsg 5 k M) s
  let s := blake2bRoundV1 (fun k => blake2bLoadMsg 6 k M) s
  let s := blake2bRoundV1 (fun k => blake2bLoadMsg 7 k M) s
  let s := blake2bRoundV1 (fun k => blake2bLoadMsg 8 k M) s
  blake2bRoundV1 (fun k => blake2bLoadMsg 9 k M) s

/-- The body of the second loop: round `i` by the table. -/
def tailRound (m : Vector Word 16) (i : ℕ) (s : Rows) : Rows :=
  blake2bRoundV1 (blake2bLoadMsg_i m ⟨i % 12, Nat.mod_lt _ (by decide)⟩) s

/-- `blake2b_compress_avx2`: what it leaves in `h`. The table index of the tail
is below `rounds % 10`, hence inside `indices`. -/
def blake2bCompressAvx2 (h : Vector Word 8) (m : Vector Word 16) (t : Vector Word 2) (f : BitVec 8)
    (rounds : BitVec 32) : Vector Word 8 :=
  let a : M256i := #v[h.get 0, h.get 1, h.get 2, h.get 3]
  let b : M256i := #v[h.get 4, h.get 5, h.get 6, h.get 7]
  let iv0 := a
  let iv1 := b
  let c : M256i := #v[blake2bIv 0, blake2bIv 1, blake2bIv 2, blake2bIv 3]
  let d := xorSi256 #v[blake2bIv 4, blake2bIv 5, blake2bIv 6, blake2bIv 7]
    (setEpi64x 0 (if f ≠ 0 then 0xFFFFFFFFFFFFFFFF else 0) (t.get 1) (t.get 0))
  let s := forRange (rounds.toNat / 10) (fun _ => tenRounds (broadcastMsg m)) ⟨a, b, c, d⟩
  let s := forRange (rounds.toNat % 10) (tailRound m) s
  let a := xorSi256 s.a s.c
  let b := xorSi256 s.b s.d
  let a := xorSi256 a iv0
  let b := xorSi256 b iv1
  #v[a.get 0, a.get 1, a.get 2, a.get 3, b.get 0, b.get 1, b.get 2, b.get 3]

end KPlugin.Blake2
