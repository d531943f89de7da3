import VehicleCloud.UnpackBounds
import VehicleCloud.UnpackAcceptance
import VehicleCloud.ShortFrames
import VehicleCloud.StateCodec
import VehicleCloud.StatePack
import VehicleCloud.InhDecode
import VehicleCloud.InhSize
import VehicleCloud.ClientOwner
import VehicleCloud.Notifications
import VehicleCloud.StartedSockets
import VehicleCloud.StartStopClash
import VehicleCloud.PackLeaks
import VehicleCloud.StopCompletes
import VehicleCloud.RegistrationStop
import VehicleCloud.Deployment
import VehicleCloud.UnpackLeaks
import VehicleCloud.BcdBytes
import VehicleCloud.DumpLog
import VehicleCloud.LinkRecovers
import VehicleCloud.Restart
