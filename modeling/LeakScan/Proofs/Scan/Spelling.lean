import LeakScan.Proofs.Disk.Resolving
import LeakScan.Proofs.Scan.Root

namespace LeakScan

variable {disk : Disk} {given root : String}

end LeakScan
