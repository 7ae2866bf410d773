import Clipp.Persistence.RegisterRestart
import Clipp.Persistence.Runtime

open Foundation

namespace ClippProof.Persistence

open ClippModel.Registers ClippModel.Wire ClippModel.Persistence ClippModel.Persistence.SealedSnapshot
  ClippModel.Persistence.RegisterPersistence ClippProof.Wire

variable {A : Aead} {nonce : Nonce} {file : SavedFile} {key : SealKey} {rs : List RegisterRecord}

namespace RestartSample

end RestartSample

end ClippProof.Persistence
