import AwaLang.Proofs.Session.Agreement
import AwaLang.Proofs.Session.Reads

namespace AwaLang.Session

open Channel

variable {session : Session}

end AwaLang.Session
